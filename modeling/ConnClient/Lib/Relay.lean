/-
  A relay: items come in, wait in order, and go out.

  `Relays held came gone held'` is the law of a first-in first-out relay over any stretch of time: what
  went out, followed by what is held at the end, is what was held at the beginning, followed by what
  came in.  Nothing is dropped, nothing goes out twice, nothing overtakes.  Stretches compose
  (`Relays.trans`), so that the law of every step is the law of every run.
-/
import Mathlib

namespace ConnClient.Lib

variable {α : Type*}

/-- A stretch of a relay's time. -/
def Relays (held came gone held' : List α) : Prop := gone ++ held' = held ++ came

variable {held held' held'' came came' gone gone' : List α}

theorem Relays.rest (held : List α) : Relays held [] [] held := by
  rw [Relays, List.nil_append, List.append_nil]

/-- Items come in behind those that wait. -/
theorem Relays.accept (held items : List α) : Relays held items [] (held ++ items) := List.nil_append _

/-- All that waits goes out. -/
theorem Relays.drain (held : List α) : Relays held [] held [] := rfl

/-- **One stretch after the other.** -/
theorem Relays.trans (h : Relays held came gone held') (h' : Relays held' came' gone' held'') :
    Relays held (came ++ came') (gone ++ gone') held'' := by
  rw [Relays] at h h' ⊢
  calc gone ++ gone' ++ held'' = gone ++ (gone' ++ held'') := List.append_assoc ..
    _ = gone ++ held' ++ came' := by rw [h', List.append_assoc]
    _ = held ++ (came ++ came') := by rw [h, List.append_assoc]

/-- From an empty relay: what went out and what waits is what came in. -/
theorem Relays.all (h : Relays [] came gone held) : gone ++ held = came := by
  rw [h, List.nil_append]

end ConnClient.Lib
