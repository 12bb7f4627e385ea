import Monopoly.Service.Promises
import Monopoly.Service.Schedule

/-!
# Monopoly.Laws.LostUpdate

No game update is lost or applied twice: whatever the interleaving of
intents, scheduler ticks and the rest of the server, the documents stored
for a session are one chain of engine steps, and a flow has a link in it
exactly when it reports success.
-/

namespace Monopoly

section Law

variable {settings : Settings} {requests : FlowId → Request} {first : GameDocument}
  {h : List (Taken Server (Event FlowId Op Op.Ans))} {p : Server}

/-- What was stored stays in the chain. -/
theorem Served.commits_mem (hserved : Served settings requests first h p)
    {t : Taken Server (Event FlowId Op Op.Ans)} (ht : t ∈ h) {c : Commit}
    (hc : c ∈ t.after.world.commits) : c ∈ p.world.commits := by
  refine Run.persists_after (P := fun p => c ∈ p.world.commits) ?_ hserved ht hc
  intro p e p' hmem hstep
  rcases exec_commits hstep.exec with h | ⟨doc, h⟩
  · exact h ▸ hmem
  · exact h ▸ List.mem_cons_of_mem _ hmem

/-- Everything that was stored for the session is one chain: each document
is what `apply` makes of the one before with its generator, for a command
that some flow was asked for, and versions go up by one.  A flow that reports
success has exactly one link in it, the document it reports; a flow that
reports failure has none, and none of its steps has changed what is
stored. -/
theorem no_lost_update (hserved : Served settings requests first h p) :
    History settings requests first p.world ∧
    (∀ i outcome game, p.flow i = .done outcome → outcome.Reports game →
      ∃ c, p.world.writtenBy i = [c] ∧ c.document.toDomain = game) ∧
    ∀ i outcome, p.flow i = .done outcome → outcome.Fails →
      p.world.writtenBy i = [] ∧
      ∀ t ∈ h, t.label.flow = i → t.after.world.commits = t.before.world.commits := by
  refine ⟨hserved.sane.toHistory,
    fun i outcome game hdone hg => (hserved.accounted hdone).1 game hg,
    fun i outcome hdone hfails => ?_⟩
  have hnone := (hserved.accounted hdone).2 hfails
  refine ⟨hnone, fun t ht hflow => ?_⟩
  rcases exec_commits (hserved.step_of_mem ht).exec with h | ⟨doc, h⟩
  · exact h
  · have hmem := hserved.commits_mem ht (h ▸ List.mem_cons_self)
    have hmine : ⟨doc, some t.label.flow⟩ ∈ p.world.writtenBy i :=
      List.mem_filter.mpr ⟨hmem, by simp [hflow]⟩
    simp [hnone] at hmine

/-- Both tabs read the same document; the first one to write rolls, the
other one has a version conflict. -/
theorem no_lost_update_two_tabs :
    ∃ first h p, Served defaultSettings twoTabs first h p ∧
      History defaultSettings twoTabs first p.world ∧
      (∃ c, p.world.writtenBy 0 = [c]) ∧ p.world.writtenBy 1 = [] := by
  obtain ⟨first, h, p, -, -, hserved, -, hcheck⟩ := served_of_schedules (duo 1500) [0, 1] twoTabs
    (turnsOf [0, 0, 1, 1, 0, 0, 0, 1, 1, 1, 1, 0, 0, 0]) anyStep
    (fun p => returns (p.flow 0) Outcome.isApplied &&
      returns (p.flow 1) Outcome.isConflict)
    (by decide) (by decide +kernel)
  obtain ⟨happlied, hrefused⟩ := Bool.and_eq_true_iff.mp hcheck
  obtain ⟨applied, hfirst, happlied⟩ := of_returns happlied
  obtain ⟨refused, hsecond, hrefused⟩ := of_returns hrefused
  obtain ⟨hhistory, hreports, hfails⟩ := no_lost_update hserved
  refine ⟨first, h, p, hserved, hhistory, ?_, ?_⟩
  · cases applied with
    | applied game timeline =>
        obtain ⟨c, hc, -⟩ := hreports 0 _ game hfirst rfl
        exact ⟨c, hc⟩
    | _ => simp [Outcome.isApplied] at happlied
  · cases refused with
    | refused failure => exact (hfails 1 _ hsecond trivial).1
    | _ => simp [Outcome.isConflict] at hrefused

end Law

end Monopoly
