import Monopoly.Service.Announcements
import Monopoly.Service.Promises
import Monopoly.Service.Schedule

/-!
# Monopoly.Laws.BroadcastOrder

Do broadcasts tell of the game in its order?  Commit, number and publication
are separate steps, and nothing holds the flows of one session to one order
of them.  They do in the runs that draw numbers in the order of the commits
and publish in the order of the numbers; among these are the runs in which
no flow stores, draws or publishes between another's store and publication.
-/

namespace Monopoly

/-- A larger number carries no older version of the game, every state on the
channel is the stored one of its version, and every subscriber receives
rising numbers. -/
structure InOrder (w : World) : Prop where
  recent : ∀ msg ∈ w.channel, ∀ later ∈ w.channel, ∀ b b', msg.body = .gameState b →
    later.body = .gameState b' → msg.seq < later.seq → b.version ≤ b'.version
  carried : ∀ msg ∈ w.channel, Carried w msg
  rising : ∀ node, ((w.nodes node).received.map (·.seq)).Pairwise (· < ·)

/-- The version the operation draws a number for. -/
def Op.numbers : Op → Option Nat
  | .incr version => version
  | _ => none

/-- The message the operation publishes. -/
def Op.message : Op → Option Envelope
  | .publish msg => some msg
  | _ => none

/-- No number is drawn for a version after one was drawn for a newer one, and
no message is published after one with a larger number. -/
def InTurn (w : World) (e : Event FlowId Op Op.Ans) : Prop :=
  (∀ v ∈ e.op.numbers, ∀ u ∈ w.drawn, ∀ v' ∈ u, v' ≤ v) ∧
    ∀ msg ∈ e.op.message, ∀ sent ∈ w.channel, sent.seq < msg.seq

instance (w : World) (e : Event FlowId Op Op.Ans) : Decidable (InTurn w e) :=
  inferInstanceAs (Decidable (_ ∧ _))

section Law

variable {settings : Settings} {requests : FlowId → Request} {first : GameDocument}
  {h : List (Taken Server (Event FlowId Op Op.Ans))} {p : Server} {i : FlowId} {w w' : World}
  {op : Op} {r : op.Ans}

/-- What a node has been given is on the channel, in that order, before its
cursor. -/
def Delivered (w : World) : Prop :=
  ∀ node, (w.nodes node).received.Sublist (w.channel.take ((w.nodes node).cursor.getD 0))

theorem exec_delivered (hw : Delivered w) (h : exec i w op r w') : Delivered w' := by
  intro node
  have hgrow : ∀ n, (w.channel.take n).Sublist (w'.channel.take n) := by
    intro n
    rcases exec_channel h with hchannel | ⟨msg, -, hchannel⟩
    · rw [hchannel]
    · rw [hchannel, List.take_append]
      exact List.sublist_append_left _ _
  have hbefore := hw node
  have hstep := exec_nodes h node
  generalize w'.nodes node = n at hstep ⊢
  cases hstep with
  | same => exact hbefore.trans (hgrow _)
  | counted count => exact hbefore.trans (hgrow _)
  | subscribed hop =>
      refine (hbefore.trans ?_).trans (hgrow _)
      cases (w.nodes node).cursor with
      | none => simp
      | some n => exact List.Sublist.refl _
  | given next msg hop hnext hmsg =>
      obtain ⟨hlt, hget⟩ := List.getElem?_eq_some_iff.mp hmsg
      refine List.Sublist.trans ?_ (hgrow _)
      show ((w.nodes node).received ++ [msg]).Sublist (w.channel.take (next + 1))
      rw [List.take_succ_eq_append_getElem hlt, hget]
      rw [hnext] at hbefore
      exact hbefore.append (List.Sublist.refl _)

/-- Numbers rise with the versions they were drawn for, and messages were
published in the order of their numbers. -/
structure Orderly (w : World) : Prop where
  drawn : w.drawn.Pairwise fun u u' => ∀ v ∈ u, ∀ v' ∈ u', v ≤ v'
  channel : (w.channel.map (·.seq)).Pairwise (· < ·)
  delivered : Delivered w

theorem Orderly.step (hw : Orderly w) (hturn : InTurn w ⟨i, op, r⟩) (h : exec i w op r w') :
    Orderly w' where
  drawn := by
    rcases exec_drawn h with hdrawn | ⟨version, rfl, hdrawn⟩
    · exact hdrawn ▸ hw.drawn
    · rw [hdrawn, List.pairwise_append]
      refine ⟨hw.drawn, List.pairwise_singleton _ _, fun u hu u' hu' v hv v' hv' => ?_⟩
      obtain rfl := List.mem_singleton.mp hu'
      exact hturn.1 v' hv' u hu v hv
  channel := by
    rcases exec_channel h with hchannel | ⟨msg, rfl, hchannel⟩
    · exact hchannel ▸ hw.channel
    · rw [hchannel, List.map_append, List.pairwise_append]
      refine ⟨hw.channel, List.pairwise_singleton _ _, fun n hn m hm => ?_⟩
      obtain ⟨sent, hsent, rfl⟩ := List.mem_map.mp hn
      obtain rfl := List.mem_singleton.mp hm
      exact hturn.2 msg rfl sent hsent
  delivered := exec_delivered hw.delivered h

theorem Opened.orderly (hw : Opened first w) : Orderly w where
  drawn := List.pairwise_iff_getElem.mpr fun i j hi _ _ v hv => by
    simp [hw.drawn _ (List.getElem_mem hi)] at hv
  channel := by simp [hw.channel]
  delivered node := by simp [(hw.nodes node).1]

theorem Orderly.inOrder (hw : Orderly w) (hsane : Sane settings requests first w) : InOrder w where
  recent msg hmsg later hlater b b' hb hb' hlt := by
    obtain ⟨n, hn, hdrawn⟩ := hsane.numbered msg hmsg
    obtain ⟨m, hm, hdrawn'⟩ := hsane.numbered later hlater
    obtain ⟨hnlt, hnget⟩ := List.getElem?_eq_some_iff.mp hdrawn
    obtain ⟨hmlt, hmget⟩ := List.getElem?_eq_some_iff.mp hdrawn'
    have hpair := List.pairwise_iff_getElem.mp hw.drawn n m hnlt hmlt (by omega)
    rw [hnget, hmget, hb, hb'] at hpair
    exact hpair _ rfl _ rfl
  carried := hsane.carried
  rising node := by
    have hsub := (hw.delivered node).trans (List.take_sublist _ _)
    exact hw.channel.sublist (hsub.map (·.seq))

theorem Served.orderly (hserved : Served settings requests first h p)
    (hturns : ∀ t ∈ h, InTurn t.before.world t.label) : Orderly p.world := by
  refine Run.invariant_of (I := fun p : Server => Orderly p.world)
    (A := fun p e => InTurn p.world e) (fun p hp => hp.1.orderly)
    (fun _ p e p' _ hp hturn hstep => ?_) hserved hturns
  exact hp.step hturn hstep.exec

/-- When every number is drawn before those of newer versions, and every
message published before those with larger numbers, the broadcasts are in
order. -/
theorem broadcasts_in_order (hserved : Served settings requests first h p)
    (hturns : ∀ t ∈ h, InTurn t.before.world t.label) : InOrder p.world :=
  (hserved.orderly hturns).inOrder hserved.sane

/-- A roll and a purchase, each published before the other starts. -/
theorem broadcasts_in_order_two_moves :
    ∃ first h p, Served defaultSettings rollAndBuy first h p ∧
      (p.world.nodes 0).received.map (·.seq) = [1, 2] ∧ InOrder p.world := by
  obtain ⟨first, h, p, -, -, hserved, hpassed, hcheck⟩ := served_of_schedules (duo 1500) [0, 1]
    rollAndBuy
    (turnsOf [2, 2, 2, 2, 2, 2, 2, 2, 0, 0, 0, 0, 0, 0, 0, 0, 1, 1, 1, 1, 1, 1, 1, 1, 3, 4])
    (fun w e => decide (InTurn w e))
    (fun p => decide ((p.world.nodes 0).received.map (·.seq) = [1, 2]))
    (by decide) (by decide +kernel)
  exact ⟨first, h, p, hserved, of_decide_eq_true hcheck,
    broadcasts_in_order hserved fun t ht => of_decide_eq_true (hpassed t ht)⟩

/-- The roll is stored as version 1 and the purchase as version 2, but the
purchase draws its number first, and the roll is published first: the
subscriber is given the purchase under number 1 after the roll under
number 2. -/
theorem late_number_breaks_order :
    ∃ first h p, Opens (duo 1500) first.state ∧ Served defaultSettings rollAndBuy first h p ∧
      p.world.channel.map (fun msg => (msg.seq, msg.body.subject)) = [(2, some 1), (1, some 2)] ∧
      (p.world.nodes 0).received.map (·.seq) = [2, 1] ∧ ¬ InOrder p.world := by
  obtain ⟨first, h, p, hopens, -, hserved, -, hcheck⟩ := served_of_schedules (duo 1500) [0, 1]
    rollAndBuy
    (turnsOf [2, 2, 2, 2, 2, 2, 2, 2, 0, 0, 0, 0, 0, 0, 1, 1, 1, 1, 1, 1, 1, 0, 0, 1, 3, 4])
    anyStep
    (fun p => decide (p.world.channel.map (fun msg => (msg.seq, msg.body.subject)) =
      [(2, some 1), (1, some 2)]) && decide ((p.world.nodes 0).received.map (·.seq) = [2, 1]))
    (by decide) (by decide +kernel)
  obtain ⟨hchannel, hreceived⟩ := Bool.and_eq_true_iff.mp hcheck
  have hseqs := of_decide_eq_true hreceived
  refine ⟨first, h, p, hopens, hserved, of_decide_eq_true hchannel, hseqs, fun horder => ?_⟩
  have hrising := horder.rising 0
  rw [hseqs] at hrising
  simp at hrising

end Law

/-! ## a schedule -/

/-- The operation stored a game, drew a number or published a message. -/
def Op.Tells : (op : Op) → op.Ans → Prop
  | .updateWithVersion .., updated => updated ≠ none
  | .incr _, _ | .publish _, _ => True
  | _, _ => False

/-- While a flow owes a number or a message, no other flow stores, draws or
publishes. -/
def Undivided (p : Server) (e : Event FlowId Op Op.Ans) : Prop :=
  e.op.Tells e.answer → ∀ i, i ≠ e.flow → owes (p.flow i) = none

/-- What is owed is still to be told in its place: the version is the current
one, the number the last one, and nothing went out under it or after it. -/
def Owed.Timely (w : World) : Owed → Prop
  | .number version => ∃ doc, w.current = some doc ∧ doc.version = version
  | .message seq => seq = w.drawn.length ∧ ∀ sent ∈ w.channel, sent.seq < seq

/-- No number was drawn for a version that is still to come. -/
def NumbersStored (w : World) : Prop :=
  ∀ u ∈ w.drawn, ∀ v ∈ u, ∀ doc, w.current = some doc → v ≤ doc.version

section Schedule

variable {settings : Settings} {requests : FlowId → Request} {first : GameDocument}
  {h : List (Taken Server (Event FlowId Op Op.Ans))} {p p' : Server} {i : FlowId} {w w' : World}
  {op : Op} {r : op.Ans} {owed : Owed} {e : Event FlowId Op Op.Ans}

theorem exec_silent (hsilent : ¬op.Tells r) (h : exec i w op r w') :
    w'.commits = w.commits ∧ w'.drawn = w.drawn ∧ w'.channel = w.channel := by
  rcases op.free_or with hfree | ⟨_, _, _, _, rfl⟩ | ⟨_, rfl⟩ | ⟨_, rfl⟩
  · exact exec_free hfree h
  · rcases exec_update h with ⟨-, rfl⟩ | ⟨doc, -, -, -, rfl, -⟩
    · exact ⟨rfl, rfl, rfl⟩
    · exact absurd (Option.some_ne_none _) hsilent
  · exact absurd trivial hsilent
  · exact absurd trivial hsilent

/-- A step that tells nothing leaves what is owed in its place. -/
theorem Owed.Timely.silent (ht : owed.Timely w) (hsilent : ¬op.Tells r)
    (h : exec i w op r w') : owed.Timely w' := by
  obtain ⟨hcommits, hdrawn, hchannel⟩ := exec_silent hsilent h
  cases owed with
  | number version => simpa [Owed.Timely, World.current, hcommits] using ht
  | message seq => simpa [Owed.Timely, hdrawn, hchannel] using ht

/-- What a step leaves its flow to tell is in its place. -/
theorem leaves_timely (hsane : Sane settings requests first w) (h : exec i w op r w')
    (howed : op.leaves r = some owed) : owed.Timely w' := by
  rcases op.free_or with hfree | ⟨_, _, _, _, rfl⟩ | ⟨_, rfl⟩ | ⟨_, rfl⟩
  · cases op <;> simp_all [Op.leaves, Op.Free]
  · rcases exec_update h with ⟨rfl, -⟩ | ⟨doc, -, -, rfl, rfl, rfl⟩
    · cases howed
    · obtain rfl := Option.some.inj howed
      exact ⟨_, rfl, rfl⟩
  · obtain ⟨rfl, rfl⟩ := h
    obtain rfl := Option.some.inj howed
    refine ⟨by simp, fun sent hsent => ?_⟩
    obtain ⟨n, hn, hdrawn⟩ := hsane.numbered sent hsent
    obtain ⟨hlt, -⟩ := List.getElem?_eq_some_iff.mp hdrawn
    omega
  · cases howed

/-- A number drawn for a version is drawn when the version is current. -/
theorem NumbersStored.step (hw : NumbersStored w) (h : exec i w op r w')
    (hnumber : ∀ version, op = .incr (some version) →
      (Owed.number version).Timely w) : NumbersStored w' := by
  rcases op.free_or with hfree | ⟨_, _, _, _, rfl⟩ | ⟨version, rfl⟩ | ⟨_, rfl⟩
  · obtain ⟨hcommits, hdrawn, -⟩ := exec_free hfree h
    simpa [NumbersStored, World.current, hcommits, hdrawn] using hw
  · rcases exec_update h with ⟨-, rfl⟩ | ⟨doc, hcurrent, -, rfl, -, rfl⟩
    · exact hw
    · intro u hu v hv doc' hdoc'
      obtain rfl := Option.some.inj hdoc'
      exact Nat.le_succ_of_le (hw u hu v hv doc hcurrent)
  · obtain ⟨-, rfl⟩ := h
    intro u hu v hv doc hdoc
    rcases List.mem_append.mp hu with hu | hu
    · exact hw u hu v hv doc hdoc
    · have hversion : version = some v := (List.mem_singleton.mp hu) ▸ hv
      obtain ⟨doc', hdoc', rfl⟩ := hnumber v (congrArg Op.incr hversion)
      obtain rfl := Option.some.inj (hdoc.symm.trans hdoc')
      exact Nat.le_refl _
  · cases h
    exact hw

/-- What every flow owes is in its place, and so is what was drawn. -/
structure Prompt (p : Server) : Prop where
  timely : ∀ i, ∀ owed ∈ owes (p.flow i), owed.Timely p.world
  drawn : NumbersStored p.world

theorem Prompt.step (hserved : Served settings requests first h p) (hp : Prompt p)
    (hundivided : Undivided p e) (hstep : Pool.Step exec p e p') : Prompt p' := by
  obtain ⟨k, hflow, hflows⟩ := hstep.call
  have hexec := hstep.exec
  obtain ⟨i, op, r⟩ := e
  constructor
  · intro j owed howed
    by_cases hj : j = i
    · subst hj
      rw [hflows, Function.update_self] at howed
      by_cases hunlock : ∃ process, op = .unlock process
      · obtain ⟨process, rfl⟩ := hunlock
        refine (hp.timely j owed ?_).silent id hexec
        rw [hflow]
        exact howed
      · have hevery := hserved.every (serve_owes settings (requests j)).2
        rw [hflow] at hevery
        rw [hevery.1 (fun process hop => hunlock ⟨process, hop⟩) r] at howed
        exact leaves_timely hserved.sane hexec howed
    · rw [hflows, Function.update_of_ne hj] at howed
      refine (hp.timely j owed howed).silent (fun htells => ?_) hexec
      rw [hundivided htells j hj] at howed
      cases howed
  · refine hp.drawn.step hexec fun version hop => hp.timely i _ ?_
    obtain rfl : op = .incr (some version) := hop
    rw [hflow]
    rfl

theorem Served.prompt (hserved : Served settings requests first h p)
    (hundivided : ∀ t ∈ h, Undivided t.before t.label) : Prompt p := by
  refine Run.invariant_of (I := Prompt) (A := Undivided) (fun p hp => ⟨fun i owed howed => ?_, ?_⟩)
    (fun _ p e p' hr hp hundivided hstep => hp.step hr hundivided hstep) hserved hundivided
  · rw [hp.2, (serve_owes settings (requests i)).1] at howed
    cases howed
  · intro u hu v hv
    rw [hp.1.drawn u hu] at hv
    cases hv

theorem Prompt.inTurn (hp : Prompt p) (hstep : Pool.Step exec p e p') : InTurn p.world e := by
  obtain ⟨k, hflow, -⟩ := hstep.call
  obtain ⟨i, op, r⟩ := e
  constructor
  · intro v hv u hu v' hv'
    cases op with
    | incr version =>
        obtain rfl : version = some v := hv
        obtain ⟨doc, hdoc, rfl⟩ := hp.timely i (.number v) (by rw [hflow]; rfl)
        exact hp.drawn u hu v' hv' doc hdoc
    | _ => cases hv
  · intro msg hmsg
    cases op with
    | publish sent =>
        obtain rfl : sent = msg := Option.some.inj hmsg
        exact (hp.timely i (.message sent.seq) (by rw [hflow]; rfl)).2
    | _ => cases hmsg

/-- A schedule that cuts no announcement in two numbers and publishes in
order. -/
theorem Served.inTurn (hserved : Served settings requests first h p)
    (hundivided : ∀ t ∈ h, Undivided t.before t.label) :
    ∀ t ∈ h, InTurn t.before.world t.label := by
  intro t ht
  obtain ⟨h', hbefore, hsub⟩ := hserved.cut_of_mem ht
  exact (Served.prompt hbefore fun t' ht' => hundivided t' (hsub ht')).inTurn
    (hserved.step_of_mem ht)

/-- Whatever the interleaving: if no flow stores a game, draws a number or
publishes a message while another has stored or drawn and not yet published,
the broadcasts are in order. -/
theorem broadcasts_in_order_undivided (hserved : Served settings requests first h p)
    (hundivided : ∀ t ∈ h, Undivided t.before t.label) : InOrder p.world :=
  (hserved.orderly (hserved.inTurn hundivided)).inOrder hserved.sane

end Schedule

end Monopoly
