/-!
# The pool of sessions

Sessions are dialed when none is idle and come back after use. The pool keeps so many idle and
closes the others; the session that came back last is taken first. Every session has a number of its
own, so that `dialed`, `idle` and `closed` account for each one.
-/

namespace Schemaless

/-- A session with a store. -/
structure Session where
  number : Nat
deriving DecidableEq

/-- The sessions that wait, the number of sessions dialed so far, and the sessions closed. -/
structure Pool where
  idle : List Session := []
  dialed : Nat := 0
  closed : List Session := []

namespace Pool

/-- Takes the session that came back last. -/
def take? (p : Pool) : Option (Session × Pool) :=
  match p.idle with
  | [] => none
  | s :: rest => some (s, { p with idle := rest })

/-- Opens a new session. -/
def dial (p : Pool) : Session × Pool := (⟨p.dialed⟩, { p with dialed := p.dialed + 1 })

/-- Takes a session back: it waits if fewer than `max` do, and is closed otherwise. -/
def release (p : Pool) (max : Nat) (s : Session) : Pool :=
  if p.idle.length < max then { p with idle := s :: p.idle } else { p with closed := s :: p.closed }

theorem length_idle_release_le (p : Pool) (max : Nat) (s : Session) (h : p.idle.length ≤ max) :
    (p.release max s).idle.length ≤ max := by
  unfold release
  split
  · simp; omega
  · exact h

end Pool

end Schemaless
