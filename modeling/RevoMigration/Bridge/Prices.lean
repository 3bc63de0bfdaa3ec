import RevoMigration.Bridge.Machine

/-!
# The prices the valuations use

`run_bridge` reads the two token prices once at startup and checks them (`cxs_price <= 0 or nextep_price <= 0`
stops the process), then, after every cycle, fetches again each price that has no truthy override. With positive
overrides nothing is fetched again: once read, the held prices are the overrides (`PriceInv`, `priceInv_next`), and
every valuation of a run uses them (`run_valuation_prices`).

Without an override the refreshed value replaces the held price unchecked: `get_token_price` answers `Decimal('0')`
on every error, and the next cycle values its deposits at that price, skips them as worth nothing and still
advances `last_block_processed` past them (`run_refresh_values_at_zero`).
-/

namespace RevoMigration.Bridge

open RevoMigration.Decimal

/-! ## Positive overrides are never replaced -/

/-- The places past the startup reads of both prices, up to the end of the process. -/
def Pc.pricesRead : Pc → Bool
  | .connect | .priceCxs | .priceNextep | .stopped _ | .crashed => false
  | _ => true

/-- What every state of a lifetime with overrides `p` and `q` satisfies: once read, the held prices are the
overrides, and so are those of every valuation so far. -/
structure PriceInv (p q : PyDecimal) (m : Machine) : Prop where
  cxs : m.pc = .priceNextep ∨ m.pc.pricesRead → m.cxsPrice = p
  nextep : m.pc.pricesRead → m.nextepPrice = q
  valuations : ∀ d c n, Event.valuation d c n ∈ m.trace → c = p ∧ n = q

theorem priceInv_init (p q : PyDecimal) (file : StateFile) : PriceInv p q (Machine.init file) :=
  ⟨fun h => by simp [Machine.init, Pc.pricesRead] at h, fun h => by simp [Machine.init, Pc.pricesRead] at h,
    fun _ _ _ h => by cases h⟩

/-- The program counter alone enters the places past the startup reads only from one of them. -/
theorem PcNext.pricesRead {cfg : Config} {m : Machine} {i : Input} {pc : Pc} (h : PcNext cfg m i pc)
    (hr : pc = .priceNextep ∨ pc.pricesRead) : m.pc.pricesRead := by
  cases h
  case connect ok _ => split at hr <;> simp [Pc.pricesRead] at hr
  case crash => simp [Pc.pricesRead] at hr
  all_goals simp_all [Pc.pricesRead]

/-- No event but a valuation adds a valuation. -/
theorem valuations_append {p q : PyDecimal} {t : List Event}
    (ht : ∀ d c n, Event.valuation d c n ∈ t → c = p ∧ n = q) {es : List Event}
    (hes : ∀ e ∈ es, ∀ d c n, e ≠ .valuation d c n) :
    ∀ d c n, Event.valuation d c n ∈ t ++ es → c = p ∧ n = q := by
  intro d c n h
  rcases List.mem_append.mp h with h | h
  · exact ht d c n h
  · exact absurd rfl (hes _ h d c n)

section Overrides

variable {cfg : Config} {p q : PyDecimal} (hcxs : cfg.cxsPrice = some p) (hnextep : cfg.nextepPrice = some q)
  (hp : p.floatTruthy = true) (hq : q.floatTruthy = true)
include hcxs hnextep hp hq

theorem priceInv_next {m m' : Machine} (hi : PriceInv p q m) {i : Input} (hn : Next cfg m i m') :
    PriceInv p q m' := by
  have hread (pc : Pc) (h : m.pc = pc) (hr : pc.pricesRead) : m.cxsPrice = p ∧ m.nextepPrice = q :=
    ⟨hi.cxs (.inr (h ▸ hr)), hi.nextep (h ▸ hr)⟩
  cases hn with
  | stay => exact hi
  | signal _ => exact ⟨hi.cxs, hi.nextep, hi.valuations⟩
  | goto h =>
    exact ⟨fun hr => hi.cxs (.inr (h.pricesRead hr)), fun hr => hi.nextep (h.pricesRead (.inr hr)), hi.valuations⟩
  | cxsPrice p' h =>
    rcases h with ⟨-, rfl, ⟨-, h⟩ | ⟨-, h⟩⟩ | ⟨-, -, h, -⟩
    · exact ⟨fun _ => (Option.some.inj (hcxs.symm.trans h)).symm, fun h => (by cases h), hi.valuations⟩
    · simp [hcxs] at h
    · simp [hcxs, refreshes, hp] at h
  | nextepPrice q' h =>
    rcases h with ⟨hpc, rfl, ⟨-, h⟩ | ⟨-, h⟩⟩ | ⟨-, -, h, -⟩
    · exact ⟨fun _ => hi.cxs (.inl hpc), fun _ => (Option.some.inj (hnextep.symm.trans h)).symm, hi.valuations⟩
    · simp [hnextep] at h
    · simp [hnextep, refreshes, hq] at h
  | valuate hpc _ _ =>
    obtain ⟨hc, hn⟩ := hread _ hpc rfl
    refine ⟨fun _ => hc, fun _ => hn, fun d c n h => ?_⟩
    rcases List.mem_append.mp h with h | h
    · exact hi.valuations d c n h
    · obtain ⟨-, rfl, rfl⟩ := Event.valuation.inj (List.mem_singleton.mp h)
      exact ⟨hc, hn⟩
  | mint r hpc =>
    obtain ⟨hc, hn⟩ := hread _ hpc rfl
    refine ⟨fun _ => by rw [mintStep_cxsPrice, hc], fun _ => by rw [mintStep_nextepPrice, hn], ?_⟩
    rw [mintStep_trace]
    exact valuations_append hi.valuations (by simp)
  | save r hpc =>
    obtain ⟨hc, hn⟩ := hread _ hpc rfl
    exact ⟨fun _ => hc, fun _ => hn, valuations_append hi.valuations (by simp)⟩
  | finalSave r hpc =>
    exact ⟨fun h => by simp [finalSaveStep, Pc.pricesRead] at h, fun h => by simp [finalSaveStep, Pc.pricesRead] at h,
      valuations_append hi.valuations (by simp)⟩

theorem priceInv_run (file : StateFile) (inputs : List Input) :
    PriceInv p q (run cfg (Machine.init file) inputs) :=
  run_of_next (fun _ _ _ hi hn => priceInv_next hcxs hnextep hp hq hi hn) (priceInv_init p q file) inputs

/-- **Overrides price every valuation.** With truthy overrides `p` and `q`, every valuation of every run of a
lifetime uses them. -/
theorem run_valuation_prices (file : StateFile) (inputs : List Input) :
    ∀ d c n, Event.valuation d c n ∈ (run cfg (Machine.init file) inputs).trace → c = p ∧ n = q :=
  (priceInv_run hcxs hnextep hp hq file inputs).valuations

end Overrides

/-- The two cycles of `run_refines_reference_two_cycles`, at overrides of one dollar: the deposit of block 1 is
valued at them. -/
theorem run_valuation_prices_two_cycles :
    let cfg : Config := ⟨"0xb", .finite ⟨1, 0⟩, some (.finite ⟨1, 0⟩), some (.finite ⟨1, 0⟩), 60, 12, 100⟩
    let inputs : List Input := [.connected true, .tick, .tick, .tick, .tick, .head 13,
      .block (some ⟨0, [⟨"0x01", "0xa", some "0xb", 10 ^ 18, "0x"⟩]⟩), .tick, .tick, .mint (.returned (some "0xm")),
      .tick, .save .written]
    Event.valuation ⟨"0x01", "0xa", cxsTokenAddress, 10 ^ 18, 1, 0⟩ (.finite ⟨1, 0⟩) (.finite ⟨1, 0⟩) ∈
        (run cfg (Machine.init .absent) inputs).trace ∧
      ∀ d c n, Event.valuation d c n ∈ (run cfg (Machine.init .absent) inputs).trace →
        c = .finite ⟨1, 0⟩ ∧ n = .finite ⟨1, 0⟩ := by
  exact ⟨by decide, run_valuation_prices rfl rfl (by decide) (by decide) .absent _⟩

/-! ## A refreshed price of zero -/

/-- Without overrides: a cycle over the empty block 1, then a refresh whose oracle call for CXS fails
(`Decimal('0')`). The next cycle values the one-CXS deposit of block 2 at a CXS price of zero, skips it, and saves
`last_block_processed = 2` with no entry. -/
theorem run_refresh_values_at_zero :
    let cfg : Config := ⟨"0xb", .finite ⟨1, 0⟩, none, none, 60, 12, 100⟩
    let block : Block := ⟨0, [⟨"0x02", "0xa", some "0xb", 10 ^ 18, "0x"⟩]⟩
    let deposit : Deposit := ⟨"0x02", "0xa", cxsTokenAddress, 10 ^ 18, 2, 0⟩
    let m := run cfg (Machine.init .absent)
      [.connected true, .price (.finite ⟨5, -2⟩), .price (.finite ⟨5, -2⟩), .tick, .tick, .head 13,
        .block (some ⟨0, []⟩), .tick, .tick, .save .written, .tick, .price (.ofInt 0), .price (.finite ⟨5, -2⟩),
        .tick, .head 14, .block (some block), .tick, .tick, .tick, .save .written]
    scanBlock cfg.bridgeAddress tokenAddresses 2 block [] = [deposit] ∧
      Event.valuation deposit (.ofInt 0) (.finite ⟨5, -2⟩) ∈ m.trace ∧ m.file = .written 2 Ledger.empty := by
  decide

end RevoMigration.Bridge
