/-!
# Cancellation tokens

A cancellation token is a handle on a flag that can be set once and is never cleared. Clones share
the flag of the token they were made from; a new token has a flag of its own. A pool holds tokens by
number, in the order they were made.
-/

namespace ChatRelay

/-- Tokens and the flags behind them. -/
structure CancellationPool where
  /-- The flag of each token. -/
  flagOf : List Nat
  /-- The flags that are set. -/
  raised : List Nat
  /-- The number of flags. -/
  flags : Nat
deriving DecidableEq, Repr

namespace CancellationPool

/-- One token, not cancelled. -/
def initial : CancellationPool := ⟨[0], [], 1⟩

/-- Cancels a token; says whether this call was the one that did it. -/
def cancel (p : CancellationPool) (token : Nat) : Bool × CancellationPool :=
  match p.flagOf[token]? with
  | none => (false, p)
  | some f => if f ∈ p.raised then (false, p) else (true, { p with raised := f :: p.raised })

/-- Whether a token is cancelled. -/
def isCancelled (p : CancellationPool) (token : Nat) : Bool :=
  p.flagOf[token]?.any (· ∈ p.raised)

/-- Adds a token with the flag of another; returns its number. -/
def clone (p : CancellationPool) (token : Nat) : Nat × CancellationPool :=
  (p.flagOf.length, { p with flagOf := p.flagOf ++ [p.flagOf[token]?.getD 0] })

/-- Adds a token with a flag of its own; returns its number. -/
def fresh (p : CancellationPool) : Nat × CancellationPool :=
  (p.flagOf.length, { p with flagOf := p.flagOf ++ [p.flags], flags := p.flags + 1 })

/-- Which tokens are cancelled. -/
def status (p : CancellationPool) : List Bool :=
  p.flagOf.map fun f => decide (f ∈ p.raised)

end CancellationPool

end ChatRelay
