import LdapTgen.AsyncInvariant

/-! Freed contexts that are still referred to. -/
namespace LdapTgen.StaleContexts
open LabelledRun LdapLists TimerWheel AsyncSystem AsyncContexts

/-- No freed context is in the timetable, in the hands of the stat thread, or in a cell reached from
the lists of a connection. -/
def NoStale (c : Conf) (s : State) : Prop :=
  ∀ k, k < s.nextCtx → s.ctx k = none → onWheel c.tableSize s.wheel k = 0 ∧ hand k s.topTU = 0 ∧
    ∀ d, entries (s.conn d).lists.pending k = 0 ∧ entries (s.conn d).lists.answered k = 0

/-- In every run with undisturbed timeouts there is no stale context. -/
theorem no_stale_context (c : Conf) (hn : 1 < c.tableSize) (es : List Label)
    (hg : Guarded (step c) (Undisturbed c) init es) : Always (step c) (NoStale c) init es := by
  refine always_of_invariant (I := fun s => Kept c s ∧ Shell c s) (fun s hs k _ hk => ?_)
    (fun s e t hs he h => ⟨step_kept hs.1 hs.2 he h, step_shell hs.2 he h⟩)
    ⟨init_kept c, init_shell hn⟩ hg
  obtain ⟨ht, hl⟩ := hs.1.gone hk
  exact ⟨(Nat.add_eq_zero_iff.mp ht).1, (Nat.add_eq_zero_iff.mp ht).2, hl⟩

/-- Worker 0 sends a search, five time units pass, and worker 1 takes the context from the
timetable. -/
def timeoutRun : List Label :=
  let go := Label.worker 0 .tau
  List.replicate 4 go ++ .worker 0 (.search none none) :: List.replicate 3 go ++
    .worker 0 (.sent 0 0) :: List.replicate 15 .topTU ++ List.replicate 6 (.worker 1 .tau)

/-- With two connections worker 1 looks for the request on its own one, frees the context and leaves
the request on the connection of worker 0. -/
theorem timeout_on_wrong_connection :
    ∃ s, run (step ⟨2, 2, 400, 5, false⟩) init timeoutRun = some s ∧ 0 < s.nextCtx ∧
      s.ctx 0 = none ∧ (s.conn 0).lists.pending = [⟨1, 0⟩] ∧ ¬ NoStale ⟨2, 2, 400, 5, false⟩ s := by
  have hrun : (run (step ⟨2, 2, 400, 5, false⟩) init timeoutRun).map
      (fun s => (s.nextCtx, s.ctx 0, (s.conn 0).lists.pending)) = some (1, none, [⟨1, 0⟩]) := by
    decide +kernel
  obtain ⟨s, hs, hv⟩ := Option.map_eq_some_iff.mp hrun
  simp only [Prod.mk.injEq] at hv
  obtain ⟨hnext, hctx, hpending⟩ := hv
  refine ⟨s, hs, by omega, hctx, hpending, fun hno => ?_⟩
  have hzero := ((hno 0 (by omega) hctx).2.2 0).1
  rw [hpending] at hzero
  cases hzero

/-- With one connection the request is removed. -/
theorem timeout_on_shared_connection :
    ∃ s, run (step ⟨2, 1, 400, 5, false⟩) init timeoutRun = some s ∧ s.ctx 0 = none ∧
      NoStale ⟨2, 1, 400, 5, false⟩ s := by
  have hrun : (run (step ⟨2, 1, 400, 5, false⟩) init timeoutRun).map (fun s => s.ctx 0) =
      some none := by decide +kernel
  obtain ⟨s, hs, hctx⟩ := Option.map_eq_some_iff.mp hrun
  have hall := no_stale_context ⟨2, 1, 400, 5, false⟩ (by decide) timeoutRun (by decide +kernel)
  exact ⟨s, hs, hctx, always_iff_reached.mp hall timeoutRun List.prefix_rfl s hs⟩

end LdapTgen.StaleContexts
