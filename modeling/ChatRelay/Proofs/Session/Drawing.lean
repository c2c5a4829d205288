import Mathlib.Data.List.Basic
import ChatRelay.Proofs.Stream.Frames
import ChatRelay.Session.EventStream

/-!
# What drawing tokens comes to

An engine that asks before it hands on a token does one of three things when a token is drawn: it
fails, it ends the reply, or it hands on the token (`pull_of_failure`, `pull_of_stop`,
`pull_of_token`). `rest` puts the draws of a reply together that nobody interrupts. As long as no
token is refused, they say what the classifier says of the tokens (`rest_after`), so that the
whole rest of a reply is a plain function of the tokens still due (`rest_eq_failure`,
`rest_eq_end`).
-/

namespace ChatRelay.Generation

/-- A reply under way whose engine asks before it hands on a token, so that the turn is not over. -/
structure Asking (g : Generation) : Prop where
  asks : g.asksToStop = true
  live : g.state.finished = false

/-- Whether the engine hands on a token. -/
def HandsOn (g : Generation) (cancelled : Bool) (t : TokenId) : Prop :=
  t ≠ g.setup.endOfTurn ∧ g.drawn < g.maxTokens ∧ cancelled = false

/-- The reply after tokens that were handed on. -/
def after (g : Generation) (ts : List TokenId) : Generation :=
  { g with state := (g.setup.pushAll g.state ts).1, drawn := g.drawn + ts.length }

/-- What the classifier says of the tokens that come next. -/
def eventsOf (g : Generation) (ts : List TokenId) : List StreamEvent :=
  g.setup.events (g.setup.pushAll g.state ts).2

/-- How many of the tokens still due are handed on, if nobody interrupts the reply: those before the
end of the turn, and no more than the limit. -/
def handedOn (g : Generation) (due : List TokenId) : Nat :=
  min (min due.length (g.maxTokens - g.drawn)) (due.idxOf g.setup.endOfTurn)

variable {g : Generation} {cancelled : Bool}

/-! ### One draw -/

theorem stopsAt_eq_false_iff (h : g.Asking) (cancelled : Bool) (t : TokenId) :
    g.stopsAt cancelled t (g.drawn + 1) = false ↔ g.HandsOn cancelled t := by
  have hlimit : ¬ g.maxTokens < g.drawn + 1 ↔ g.drawn < g.maxTokens := by omega
  rw [stopsAt, h.asks, HandsOn]
  simp only [Bool.true_and, Bool.or_eq_false_iff, beq_eq_false_iff_ne, decide_eq_false_iff_not,
    and_assoc, hlimit]

theorem pull_of_failure (h : g.failAt = some (g.drawn + 1)) (cancelled : Bool)
    (due : Option TokenId) :
    g.pull cancelled due = ⟨(failure (g.drawn + 1)).events cancelled, [], false, none⟩ := by
  unfold pull
  exact if_pos h

theorem pull_of_stop (h : g.Asking) (hfail : g.failAt ≠ some (g.drawn + 1)) {due : Option TokenId}
    (hstop : ∀ t ∈ due, ¬ g.HandsOn cancelled t) : g.pull cancelled due = g.ending := by
  unfold pull
  rw [if_neg hfail]
  cases due with
  | none => rfl
  | some t =>
    have hstops : g.stopsAt cancelled t (g.drawn + 1) = true := by
      rw [← Bool.not_eq_false, stopsAt_eq_false_iff h]
      exact hstop t rfl
    exact if_pos hstops

theorem Asking.after {t : TokenId} (h : g.Asking) (ht : g.HandsOn cancelled t) :
    (g.after [t]).Asking where
  asks := h.asks
  live := (Classifier.Setup.finished_push ht.1).trans h.live

theorem pull_of_token (h : g.Asking) (hfail : g.failAt ≠ some (g.drawn + 1)) {t : TokenId}
    (ht : g.HandsOn cancelled t) :
    g.pull cancelled (some t) = g.said (g.setup.pushAll g.state [t]).2 true (some (g.after [t])) := by
  have hnot : ¬ g.stopsAt cancelled t (g.drawn + 1) = true := by
    rw [(stopsAt_eq_false_iff h cancelled t).2 ht]
    exact Bool.false_ne_true
  have hlive : (g.setup.push g.state t).1.finished = false :=
    (Classifier.Setup.finished_push ht.1).trans h.live
  unfold pull
  rw [if_neg hfail]
  simp only [if_neg hnot, hlive, Bool.false_eq_true, if_false]
  have hone : (g.setup.pushAll g.state [t]).2 = (g.setup.push g.state t).2 := List.append_nil _
  rw [hone]
  rfl

/-- A draw after which there is nothing to draw any more. -/
structure Last (g : Generation) (cancelled : Bool) (due : List TokenId) : Prop where
  counted : (g.pull cancelled due.head?).counted = false
  next : (g.pull cancelled due.head?).next = none

theorem last_of_failure (h : g.failAt = some (g.drawn + 1)) (cancelled : Bool)
    (due : List TokenId) : g.Last cancelled due := by
  constructor <;> rw [pull_of_failure h]

theorem last_of_stop (h : g.Asking) (hfail : g.failAt ≠ some (g.drawn + 1)) {due : List TokenId}
    (hstop : ∀ t ∈ due.head?, ¬ g.HandsOn cancelled t) : g.Last cancelled due := by
  constructor <;> rw [pull_of_stop h hfail hstop] <;> rfl

/-- While the relay shuts down, any draw is the last. -/
theorem last_of_cancelled (h : g.Asking) (due : List TokenId) : g.Last true due := by
  by_cases hfail : g.failAt = some (g.drawn + 1)
  · exact last_of_failure hfail true due
  · refine last_of_stop h hfail ?_
    rintro t - ⟨-, -, hcancelled⟩
    cases hcancelled

/-- Otherwise the engine fails, or stops, or hands on the token that is due. -/
theorem draw_cases (g : Generation) (due : List TokenId) :
    g.failAt = some (g.drawn + 1) ∨
      (g.failAt ≠ some (g.drawn + 1) ∧ ∀ t ∈ due.head?, ¬ g.HandsOn false t) ∨
      (g.failAt ≠ some (g.drawn + 1) ∧ ∃ t rest, due = t :: rest ∧ g.HandsOn false t) := by
  by_cases hfail : g.failAt = some (g.drawn + 1)
  · exact .inl hfail
  · refine .inr ?_
    cases due with
    | nil => exact .inl ⟨hfail, nofun⟩
    | cons t rest =>
      by_cases ht : g.HandsOn false t
      · exact .inr ⟨hfail, t, rest, rfl, ht⟩
      · refine .inl ⟨hfail, ?_⟩
        intro u hu
        obtain rfl : t = u := Option.some.inj hu
        exact ht

theorem last_or_token (h : g.Asking) (due : List TokenId) :
    g.Last false due ∨
      (g.failAt ≠ some (g.drawn + 1) ∧ ∃ t rest, due = t :: rest ∧ g.HandsOn false t) := by
  rcases g.draw_cases due with hfail | ⟨hfail, hstop⟩ | htoken
  · exact .inl (last_of_failure hfail false due)
  · exact .inl (last_of_stop h hfail hstop)
  · exact .inr htoken

/-- What the last draw says: that the engine fails, or the end of the classifier. -/
theorem events_of_last (h : g.Asking) {due : List TokenId} (hlast : g.Last cancelled due) :
    (g.pull cancelled due.head?).events =
      if g.failAt = some (g.drawn + 1) then (failure (g.drawn + 1)).events cancelled
      else g.setup.events g.state.finish.2 := by
  split
  · next hfail => rw [pull_of_failure hfail]
  · next hfail =>
    have hstop : ∀ t ∈ due.head?, ¬ g.HandsOn cancelled t := by
      intro t ht hon
      have hnext := hlast.next
      rw [Option.mem_def.1 ht, pull_of_token h hfail hon] at hnext
      cases hnext
    rw [pull_of_stop h hfail hstop]
    rfl

/-! ### All draws -/

/-- The events of the tokens still due, if nobody interrupts the reply. -/
def rest (g : Generation) : List TokenId → List StreamEvent
  | [] => (g.pull false none).events
  | t :: due =>
    let p := g.pull false (some t)
    match p.next with
    | none => p.events
    | some g' => p.events ++ rest g' due

/-- Where no token is handed on, the first draw is the last. -/
theorem rest_of_last {due : List TokenId} (h : g.Last false due) :
    g.rest due = (g.pull false due.head?).events := by
  cases due with
  | nil => rfl
  | cons t due =>
    have hnext := h.next
    rw [List.head?_cons] at hnext
    simp only [rest, List.head?_cons, hnext]

theorem rest_of_token (h : g.Asking) (hfail : g.failAt ≠ some (g.drawn + 1)) {t : TokenId}
    (ht : g.HandsOn false t) (due : List TokenId) :
    g.rest (t :: due) = g.eventsOf [t] ++ (g.after [t]).rest due := by
  simp only [rest, pull_of_token h hfail ht, said, eventsOf]

/-- The engine fails at the next token. -/
theorem rest_of_failure (hfail : g.failAt = some (g.drawn + 1)) (due : List TokenId) :
    g.rest due = [.failure (failure (g.drawn + 1)).message] := by
  rw [rest_of_last (last_of_failure hfail false due), pull_of_failure hfail]
  rfl

/-- The engine hands on no more. -/
theorem rest_of_stop (h : g.Asking) (hfail : g.failAt ≠ some (g.drawn + 1)) {due : List TokenId}
    (hstop : ∀ t ∈ due.head?, ¬ g.HandsOn false t) :
    g.rest due = g.setup.events g.state.finish.2 := by
  rw [rest_of_last (last_of_stop h hfail hstop), pull_of_stop h hfail hstop]
  rfl

/-! ### Several tokens -/

theorem after_cons (g : Generation) (t : TokenId) (ts : List TokenId) :
    g.after (t :: ts) = (g.after [t]).after ts := by
  simp only [after, Classifier.Setup.pushAll, List.length_cons, List.length_nil]
  congr 1
  omega

theorem eventsOf_cons (g : Generation) (t : TokenId) (ts : List TokenId) :
    g.eventsOf (t :: ts) = g.eventsOf [t] ++ (g.after [t]).eventsOf ts := by
  simp only [eventsOf, after, Classifier.Setup.pushAll, Classifier.Setup.events,
    List.filterMap_append, List.append_nil]

/-- A token that is handed on is the first of those that are. -/
theorem handedOn_cons {t : TokenId} (ht : g.HandsOn false t) (due : List TokenId) :
    g.handedOn (t :: due) = (g.after [t]).handedOn due + 1 := by
  obtain ⟨hne, hlimit, -⟩ := ht
  simp only [handedOn, after, List.length_cons, List.length_nil, List.idxOf_cons_ne _ hne]
  omega

/-- Where tokens are handed on, the first is. -/
theorem handsOn_of_handedOn {t : TokenId} {due : List TokenId}
    (h : 0 < g.handedOn (t :: due)) : g.HandsOn false t := by
  refine ⟨?_, ?_, rfl⟩
  · rintro rfl
    rw [handedOn, List.idxOf_cons_self] at h
    omega
  · rw [handedOn] at h
    omega

theorem not_handsOn_of_handedOn {due : List TokenId} (h : g.handedOn due = 0) :
    ∀ t ∈ due.head?, ¬ g.HandsOn false t := by
  intro t ht
  cases due with
  | nil => cases ht
  | cons u due =>
    obtain rfl : u = t := Option.some.inj ht
    intro hon
    rw [handedOn_cons hon] at h
    omega

/-- Tokens that are handed on say what the classifier says of them, if the engine does not fail
first. -/
theorem rest_after (h : g.Asking) {i : Nat} {due : List TokenId} (hi : i ≤ g.handedOn due)
    (hfail : ∀ k < i, g.failAt ≠ some (g.drawn + k + 1)) :
    g.rest due = g.eventsOf (due.take i) ++ (g.after (due.take i)).rest (due.drop i) ∧
      (g.after (due.take i)).Asking ∧
      (g.after (due.take i)).handedOn (due.drop i) = g.handedOn due - i := by
  -- By induction on the number of tokens: each is handed on, and leaves one less to be.
  induction i generalizing g due with
  | zero => exact ⟨rfl, h, rfl⟩
  | succ i ih =>
    cases due with
    | nil => simp [handedOn] at hi
    | cons t due =>
      have hpos : 0 < g.handedOn (t :: due) := by omega
      have ht := handsOn_of_handedOn hpos
      have hcons := handedOn_cons ht due
      obtain ⟨hrest, hasking, hleft⟩ := ih (h.after ht) (show i ≤ (g.after [t]).handedOn due by omega)
        (by
          intro k hk
          have := hfail (k + 1) (by omega)
          rwa [← Nat.add_assoc, Nat.add_right_comm g.drawn] at this)
      rw [List.take_succ_cons, List.drop_succ_cons, after_cons, eventsOf_cons]
      refine ⟨?_, hasking, by omega⟩
      rw [rest_of_token h (by simpa using hfail 0 (by omega)) ht, hrest, List.append_assoc]

/-- The whole rest of a reply in which the engine fails. -/
theorem rest_eq_failure (h : g.Asking) {i : Nat} {due : List TokenId} (hi : i ≤ g.handedOn due)
    (hfail : g.failAt = some (g.drawn + i + 1)) :
    g.rest due =
      g.eventsOf (due.take i) ++ [.failure (failure (g.drawn + i + 1)).message] := by
  have hlen : (due.take i).length = i := by
    rw [List.length_take]
    rw [handedOn] at hi
    omega
  obtain ⟨hrest, -, -⟩ := rest_after h hi (by
    intro k hk
    rw [hfail, Ne, Option.some.injEq]
    omega)
  have hnext : (g.after (due.take i)).failAt = some ((g.after (due.take i)).drawn + 1) := by
    simp only [after, hlen, hfail]
  rw [hrest, rest_of_failure hnext]
  simp only [after, hlen]

/-- The whole rest of a reply that comes to its end. -/
theorem rest_eq_end (h : g.Asking) {due : List TokenId}
    (hfail : ∀ i ≤ g.handedOn due, g.failAt ≠ some (g.drawn + i + 1)) :
    g.rest due =
      g.eventsOf (due.take (g.handedOn due)) ++
        g.setup.events (g.after (due.take (g.handedOn due))).state.finish.2 := by
  have hlen : (due.take (g.handedOn due)).length = g.handedOn due := by
    rw [List.length_take]
    have : g.handedOn due ≤ due.length := by
      rw [handedOn]
      omega
    omega
  obtain ⟨hrest, hasking, hleft⟩ := rest_after h (Nat.le_refl (g.handedOn due)) (fun k hk => hfail k (by omega))
  have hnext : (g.after (due.take (g.handedOn due))).failAt ≠
      some ((g.after (due.take (g.handedOn due))).drawn + 1) := by
    simp only [after, hlen]
    exact hfail _ (Nat.le_refl _)
  rw [hrest, rest_of_stop hasking hnext (not_handsOn_of_handedOn (by omega))]
  rfl

end ChatRelay.Generation
