import RevoMigration.Decimal.Round
import RevoMigration.Decimal.Finite
import RevoMigration.Decimal.Value
import RevoMigration.Bridge.Valuation
import RevoMigration.Bridge.Scan
import RevoMigration.Bridge.State
import RevoMigration.Bridge.Machine
import RevoMigration.Bridge.Credits
import RevoMigration.Bridge.Windows
import RevoMigration.Bridge.Prices
import RevoMigration.Bridge.Refinement
import RevoMigration.Genesis
import RevoMigration.Wallets.Abi
import RevoMigration.Wallets.Multisend
import RevoMigration.Wallets.Pages
import RevoMigration.Wallets.Extract
import RevoMigration.Holders.RateLimiter
import RevoMigration.Wallets.Balances
import RevoMigration.Holders.Fetcher
import RevoMigration.Holders.Accounts
import RevoMigration.Holders.Blocks
import RevoMigration.Combine
import RevoMigration.Distribution
import RevoMigration.Pipeline
import RevoMigration.FetchedPrices
import RevoMigration.Bridge.Mint
