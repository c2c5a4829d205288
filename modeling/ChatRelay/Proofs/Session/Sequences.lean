import ChatRelay.Proofs.Session.Departing
import ChatRelay.Proofs.Session.Uninterrupted

/-!
# One session after another

Requests run one after the other on one registry, and any of them may be invalid, meet an engine
that fails, or lose its consumer in the middle of a reply. None of this reaches the next request:
each gets the events that it would have got from a new registry (`runs_alone`).
-/

namespace ChatRelay

/-- A request whose consumer may leave after so many events or break down at one. -/
structure Call where
  request : GenerateRequest
  stopAfter : Option Nat
  breakAt : Option Nat

/-- The consumer of a call. -/
def Call.reactions (call : Call) : Reactions := ⟨call.stopAfter, .none, .none, call.breakAt⟩

theorem Call.departing (call : Call) : call.reactions.Departing := ⟨rfl, rfl⟩

namespace Registry

/-- Runs requests one after the other, each in the registry that the one before it leaves. -/
def runs : Registry → List Call → List Run
  | _, [] => []
  | r, call :: rest =>
    let run := r.run call.request call.reactions
    run :: runs run.registry rest

/-- A run that is what the call would come to in a registry without a past, and that leaves a
registry in which the next one can begin. -/
structure Alone (fresh : Registry) (call : Call) (run : Run) : Prop where
  received : run.received = (fresh.run call.request call.reactions).received
  /-- The events are those of the whole reply up to the one at which the consumer goes. -/
  cut : run.received = call.reactions.taken 1 (fresh.run call.request .none).received
  generating : run.registry.generating = false
  held : run.registry.isReleased = false
  begins : run.registry.begin.1 = .ok ()

variable {r : Registry} {d : Dialect} {engine : Engine} {maxTokens : Nat}

/-- A registry that serves is there for the next session. -/
theorem Serving.ready (h : r.Serving d engine maxTokens) :
    r.generating = false ∧ r.isReleased = false ∧ r.begin.1 = .ok () := by
  refine ⟨h.idle.generating, ?_, ?_⟩
  · simp only [isReleased, tryLock, h.idle.busy, h.engine]
    cases r.poisoned <;> rfl
  · rw [begin_eq h.cancelled h.engine]

theorem Serving.alone (h : r.Serving d engine maxTokens) (call : Call) :
    Alone (new d engine maxTokens) call (r.run call.request call.reactions) := by
  obtain ⟨hreceived, hserving⟩ := h.run call.request call.departing
  have hfresh := serving_new d engine maxTokens
  obtain ⟨hsame, -⟩ := hfresh.run call.request call.departing
  obtain ⟨hwhole, -⟩ := hfresh.run call.request Reactions.departing_none
  obtain ⟨hgenerating, hheld, hbegins⟩ := hserving.ready
  refine ⟨hreceived.trans hsame.symm, ?_, hgenerating, hheld, hbegins⟩
  have hall : ((new d engine maxTokens).run call.request .none).received =
      answer d engine maxTokens call.request :=
    hwhole.trans (Reactions.taken_none 1 _)
  rw [hall]
  exact hreceived

theorem Serving.runs (h : r.Serving d engine maxTokens) (calls : List Call) :
    List.Forall₂ (Alone (new d engine maxTokens)) calls (r.runs calls) := by
  -- What is kept from one run to the next is that the registry serves, whatever was asked of it.
  induction calls generalizing r with
  | nil => exact .nil
  | cons call calls ih =>
    have hnext := (h.run call.request call.departing).2
    exact .cons (h.alone call) (ih hnext)

/-- Any requests, one after the other, whatever the engine does and however their consumers go: none
sees anything of those before it. -/
theorem runs_alone (d : Dialect) (engine : Engine) (maxTokens : Nat) (calls : List Call) :
    List.Forall₂ (Alone (new d engine maxTokens)) calls ((new d engine maxTokens).runs calls) :=
  (serving_new d engine maxTokens).runs calls

-- A consumer leaves, a request is invalid, a consumer breaks down, and the engine fails.
example :
    ((new .qwen (spelling (some 3)) 9).runs [⟨greeting, some 1, none⟩, ⟨⟨[], none⟩, none, none⟩,
      ⟨greeting, none, some 2⟩, ⟨greeting, none, none⟩]).map Run.received =
        [[.plain "a"], [.failure "No messages provided"], [.plain "a", .plain "b"],
          [.plain "a", .plain "b", .failure "Generation failed: decode failed at token 3"]] := by
  decide +kernel

end Registry

end ChatRelay
