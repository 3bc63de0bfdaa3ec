import RevoMigration.Bridge.Machine

/-!
# The windows of a lifetime

The windows whose end became `last_block_processed` are the `advance` events of the trace (`advances`). From a
loaded `last_block_processed = L₀` they follow each other without gap or overlap (`Contiguous`): the first starts
at `L₀ + 1`, each one starts right after the end of the previous one, none is empty, and the last one ends at the
current `last_block_processed`; each is at most `max_blocks` long and ends at least `confirmations` blocks below
the head its cycle read (`WindowOk`). `WindowInv` adds that the window of the cycle in progress starts right after
`last_block_processed`; one transition keeps it (`windowInv_next`), and only the save at the end of a cycle moves
`last_block_processed`, to the end of that cycle's window, which it records (`Next.advances_eq`). `run_windows`
collects the consequences: `last_block_processed` never decreases, rises strictly at every save, and the windows
cover the blocks from `L₀ + 1` to it exactly once (`Contiguous.cover`, `Contiguous.pairwise`).
-/

namespace RevoMigration.Bridge

/-! ## Contiguous windows -/

/-- The windows of the `advance` events of a trace, in order. -/
def advances (trace : List Event) : List Window :=
  trace.filterMap fun | .advance w => some w | _ => none

@[simp] theorem advances_append (t t' : List Event) : advances (t ++ t') = advances t ++ advances t' :=
  List.filterMap_append _ _ _

@[simp] theorem advances_nil : advances [] = [] := rfl

/-- Non-empty windows, each starting right after the end of the previous one, from `last` to `last'`. -/
def Contiguous : ℤ → List Window → ℤ → Prop
  | last, [], last' => last' = last
  | last, w :: ws, last' => w.start = last + 1 ∧ w.start ≤ w.stop ∧ Contiguous w.stop ws last'

theorem Contiguous.snoc {last last' : ℤ} {ws : List Window} {w : Window} (h : Contiguous last ws last')
    (hs : w.start = last' + 1) (hw : w.start ≤ w.stop) : Contiguous last (ws ++ [w]) w.stop := by
  induction ws generalizing last with
  | nil => exact ⟨h ▸ hs, hw, rfl⟩
  | cons v ws ih => exact ⟨h.1, h.2.1, ih h.2.2⟩

theorem Contiguous.le {last last' : ℤ} {ws : List Window} (h : Contiguous last ws last') : last ≤ last' := by
  induction ws generalizing last with
  | nil => exact h.ge
  | cons v ws ih => obtain ⟨h1, h2, h3⟩ := h; have := ih h3; omega

/-- Every block after `last` up to `last'` lies in one of the windows. -/
theorem Contiguous.cover {last last' : ℤ} {ws : List Window} (h : Contiguous last ws last') (b : ℤ)
    (hb : last < b) (hb' : b ≤ last') : ∃ w ∈ ws, w.start ≤ b ∧ b ≤ w.stop := by
  induction ws generalizing last with
  | nil => have : last' = last := h; omega
  | cons v ws ih =>
    obtain ⟨h1, h2, h3⟩ := h
    by_cases hv : b ≤ v.stop
    · exact ⟨v, List.mem_cons_self _ _, by omega, hv⟩
    · obtain ⟨w, hw, hw'⟩ := ih h3 (by omega)
      exact ⟨w, List.mem_cons_of_mem _ hw, hw'⟩

/-- The windows lie after `last`, in increasing order. -/
theorem Contiguous.after {last last' : ℤ} {ws : List Window} (h : Contiguous last ws last') :
    ∀ w ∈ ws, last < w.start := by
  induction ws generalizing last with
  | nil => simp
  | cons v ws ih =>
    obtain ⟨h1, h2, h3⟩ := h
    intro w hw
    rcases List.mem_cons.mp hw with rfl | hw
    · omega
    · have := ih h3 w hw; omega

/-- No two windows overlap: each ends before the next one starts. -/
theorem Contiguous.pairwise {last last' : ℤ} {ws : List Window} (h : Contiguous last ws last') :
    ws.Pairwise fun w w' => w.stop < w'.start := by
  induction ws generalizing last with
  | nil => exact List.Pairwise.nil
  | cons v ws ih => exact List.Pairwise.cons (h.2.2.after) (ih h.2.2)

/-! ## The invariant -/

/-- What the window arithmetic of `run_bridge` guarantees of a window. -/
def WindowOk (cfg : Config) (w : Window) : Prop :=
  w.start ≤ w.stop ∧ w.stop - w.start + 1 ≤ cfg.maxBlocks ∧ w.stop ≤ w.head - cfg.confirmations

/-- The window of the cycle in progress, from the head read to the save. -/
def Pc.window? : Pc → Option Window
  | .scan w _ _ => some w
  | .process w _ => some w
  | .minting w _ _ _ => some w
  | .save w => some w
  | _ => none

/-- What every state of a lifetime that loaded `last_block_processed = last` satisfies. -/
structure WindowInv (cfg : Config) (last : ℤ) (m : Machine) : Prop where
  contiguous : Contiguous last (advances m.trace) m.lastBlockProcessed
  ok : ∀ w ∈ advances m.trace, WindowOk cfg w
  current : ∀ w, m.pc.window? = some w → w.start = m.lastBlockProcessed + 1 ∧ WindowOk cfg w

/-- A non-empty window computed from `last` is a good window that starts right after it. -/
theorem window_ok (cfg : Config) (last h : ℤ) (hw : ¬(cfg.window last h).stop < (cfg.window last h).start) :
    (cfg.window last h).start = last + 1 ∧ WindowOk cfg (cfg.window last h) := by
  have h1 : (cfg.window last h).stop ≤ h - cfg.confirmations := min_le_left _ _
  have h2 : (cfg.window last h).stop ≤ last + 1 + cfg.maxBlocks - 1 := min_le_right _ _
  have h3 : (cfg.window last h).start = last + 1 := rfl
  have h4 : (cfg.window last h).head = h := rfl
  unfold WindowOk
  omega

theorem windowInv_init (cfg : Config) (file : StateFile) : WindowInv cfg file.load.1 (Machine.init file) :=
  ⟨rfl, by simp [Machine.init], fun _ h => by cases h⟩

/-- The program counter alone keeps the window of the cycle, or starts one from the current
`last_block_processed`. -/
theorem PcNext.window? {cfg : Config} {m : Machine} {i : Input} {pc : Pc} (h : PcNext cfg m i pc) {w : Window}
    (hw : pc.window? = some w) :
    m.pc.window? = some w ∨ w.start = m.lastBlockProcessed + 1 ∧ WindowOk cfg w := by
  cases h with
  | head hd _ =>
    simp only [headPc] at hw
    split_ifs at hw with hs
    · cases hw
    · cases hw
      exact .inr (window_ok cfg _ _ hs)
  | fetch b hpc _ _ => cases hw; exact .inl (by rw [hpc]; rfl)
  | scanEnd hpc _ => cases hw; exact .inl (by rw [hpc]; rfl)
  | processEnd hpc => cases hw; exact .inl (by rw [hpc]; rfl)
  | processBreak hpc _ => cases hw; exact .inl (by rw [hpc]; rfl)
  | processSkip hpc _ _ => cases hw; exact .inl (by rw [hpc]; rfl)
  | checkPrices => unfold Bridge.checkPrices at hw; repeat' split at hw
                   all_goals cases hw
  | _ => repeat' split at hw
         all_goals cases hw

theorem windowInv_next {cfg : Config} {last : ℤ} {m m' : Machine} (hi : WindowInv cfg last m)
    {i : Input} (hn : Next cfg m i m') : WindowInv cfg last m' := by
  cases hn with
  | stay => exact hi
  | signal _ => exact ⟨hi.contiguous, hi.ok, hi.current⟩
  | goto h => exact ⟨hi.contiguous, hi.ok, fun w hw => (h.window? hw).elim (hi.current w) id⟩
  | cxsPrice p h =>
    refine ⟨hi.contiguous, hi.ok, fun w hw => ?_⟩
    rcases h with ⟨-, rfl, -⟩ | ⟨-, rfl, -⟩ <;> cases hw
  | nextepPrice p h =>
    refine ⟨hi.contiguous, hi.ok, fun w hw => ?_⟩
    rcases h with ⟨-, rfl, -⟩ | ⟨-, rfl, -⟩ <;> cases hw
  | valuate hpc _ _ =>
    refine ⟨by simpa [advances] using hi.contiguous, by simpa [advances] using hi.ok, fun w hw => ?_⟩
    simp only [Machine.goto_pc, Machine.goto_lastBlockProcessed, Machine.emit_lastBlockProcessed] at hw ⊢
    refine hi.current w ?_
    rw [hpc]
    unfold valuatedPc at hw
    repeat' split at hw
    all_goals (cases hw; try rfl)
  | mint r hpc =>
    refine ⟨by simpa [advances] using hi.contiguous, by simpa [advances] using hi.ok, fun w hw => ?_⟩
    rw [mintStep_pc] at hw
    rw [mintStep_lastBlockProcessed]
    refine hi.current w ?_
    rw [hpc]
    split_ifs at hw
    · cases hw
    · exact hw
  | save r hpc =>
    obtain ⟨hs, hok⟩ := hi.current _ (by rw [hpc]; rfl)
    refine ⟨?_, ?_, fun w hw => by cases hw⟩
    · simpa [saveStep, advances] using hi.contiguous.snoc hs hok.1
    · intro v hv
      simp only [saveStep, advances_append, List.mem_append] at hv
      rcases hv with hv | hv
      · exact hi.ok v hv
      · obtain rfl : v = _ := List.mem_singleton.mp hv
        exact hok
  | finalSave r hpc =>
    have ha : advances (finalSaveStep m r).trace = advances m.trace :=
      (advances_append _ _).trans (List.append_nil _)
    exact ⟨ha ▸ hi.contiguous, ha ▸ hi.ok, fun w hw => by cases hw⟩

theorem windowInv_run (cfg : Config) (file : StateFile) (inputs : List Input) :
    WindowInv cfg file.load.1 (run cfg (Machine.init file) inputs) :=
  run_of_next (fun _ _ _ hi hn => windowInv_next hi hn) (windowInv_init cfg file) inputs

/-- Only the save at the end of a cycle moves `last_block_processed`, to the end of the cycle's window, recorded
as the next window of the trace; every other transition leaves both as they are. -/
theorem Next.advances_eq {cfg : Config} {m m' : Machine} {i : Input} (hn : Next cfg m i m') :
    (m'.lastBlockProcessed = m.lastBlockProcessed ∧ advances m'.trace = advances m.trace) ∨
      ∃ w r, m.pc = .save w ∧ i = .save r ∧ m'.lastBlockProcessed = w.stop ∧
        advances m'.trace = advances m.trace ++ [w] := by
  cases hn with
  | save r hpc => exact .inr ⟨_, r, hpc, rfl, rfl, by simp [saveStep, advances]⟩
  | valuate => exact .inl ⟨rfl, by simp [advances]⟩
  | mint r _ => exact .inl ⟨mintStep_lastBlockProcessed .., by simp [advances]⟩
  | finalSave r _ => exact .inl ⟨rfl, by simp [finalSaveStep, advances]⟩
  | _ => exact .inl ⟨rfl, rfl⟩

/-- **The windows partition the scanned blocks.** In every run of a lifetime that loaded
`last_block_processed = L₀`, whatever the heads, `confirmations` and `max_blocks`: the windows of the cycles that
reached `update_last_block` are non-empty and contiguous from `L₀ + 1` to the current `last_block_processed`, which
is at least `L₀`, so they cover every block in between, and no two overlap; each is at most `max_blocks` long and
ends at least `confirmations` below the head its cycle read. At the save of a cycle's window `[start, end]`,
`start = last_block_processed + 1` and `last_block_processed < end`; the save sets `last_block_processed` to `end`
and records the window, and every other step leaves both as they are. -/
theorem run_windows (cfg : Config) (file : StateFile) (inputs : List Input) :
    let m := run cfg (Machine.init file) inputs
    Contiguous file.load.1 (advances m.trace) m.lastBlockProcessed ∧
    (∀ w ∈ advances m.trace, WindowOk cfg w) ∧
    file.load.1 ≤ m.lastBlockProcessed ∧
    (∀ b, file.load.1 < b → b ≤ m.lastBlockProcessed → ∃ w ∈ advances m.trace, w.start ≤ b ∧ b ≤ w.stop) ∧
    (advances m.trace).Pairwise (fun w w' => w.stop < w'.start) ∧
    (∀ w, m.pc = .save w → w.start = m.lastBlockProcessed + 1 ∧ m.lastBlockProcessed < w.stop) ∧
    (∀ w r, m.pc = .save w → (step cfg m (.save r)).lastBlockProcessed = w.stop ∧
      advances (step cfg m (.save r)).trace = advances m.trace ++ [w]) ∧
    ∀ i, (¬∃ w r, m.pc = .save w ∧ i = .save r) →
      (step cfg m i).lastBlockProcessed = m.lastBlockProcessed ∧ advances (step cfg m i).trace = advances m.trace := by
  intro m
  have hi : WindowInv cfg file.load.1 m := windowInv_run cfg file inputs
  refine ⟨hi.contiguous, hi.ok, hi.contiguous.le, hi.contiguous.cover, hi.contiguous.pairwise, fun w hpc => ?_,
    fun w r hpc => ?_, fun i hne => ?_⟩
  · obtain ⟨hs, hok⟩ := hi.current w (by rw [hpc]; rfl)
    exact ⟨hs, by have := hok.1; omega⟩
  · simp [step, exec, hpc, Pc.running, saveStep, advances]
  · rcases (step_next cfg m i).advances_eq with h | ⟨w, r, hpc, hi, -⟩
    · exact h
    · exact absurd ⟨w, r, hpc, hi⟩ hne

end RevoMigration.Bridge
