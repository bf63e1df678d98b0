/-
A message on its way through a byte stream: its writer and its reader take as much of it at a time as the stream lets
them, and what has been read is a beginning of it.
-/
import Mathlib.Data.List.Basic

namespace Pipe

variable {β : Type} {message got buf rest : List β} {n : Nat}

/-- What has been read, what is in the stream, and what is still to be written, if that is known, make up the message. -/
def Carries (message got buf : List β) (rest : Option (List β)) : Prop :=
  ∃ tail, got ++ buf ++ tail = message ∧ ∀ r ∈ rest, r = tail

theorem Carries.start : Carries message [] [] (some message) := ⟨message, rfl, by rintro _ ⟨⟩; rfl⟩

theorem Carries.write (h : Carries message got buf (some rest)) (n : Nat) :
    Carries message got (buf ++ rest.take n) (some (rest.drop n)) := by
  obtain ⟨tail, rfl, htail⟩ := h
  obtain rfl := htail rest rfl
  refine ⟨rest.drop n, ?_, by rintro _ ⟨⟩; rfl⟩
  rw [← List.append_assoc, List.append_assoc, List.take_append_drop]

theorem Carries.read {rest : Option (List β)} (h : Carries message got buf rest) (n : Nat) :
    Carries message (got ++ buf.take n) (buf.drop n) rest := by
  obtain ⟨tail, rfl, htail⟩ := h
  exact ⟨tail, by rw [List.append_assoc got, List.take_append_drop], htail⟩

/-- The writer goes away. -/
theorem Carries.gone {rest : Option (List β)} (h : Carries message got buf rest) : Carries message got buf none := by
  obtain ⟨tail, hmessage, -⟩ := h
  exact ⟨tail, hmessage, nofun⟩

/-- What has been read is the beginning of the message. -/
theorem Carries.got_eq {rest : Option (List β)} (h : Carries message got buf rest) : got = message.take got.length := by
  obtain ⟨tail, rfl, -⟩ := h
  rw [List.append_assoc, List.take_left]

theorem Carries.length_le {rest : Option (List β)} (h : Carries message got buf rest) : got.length ≤ message.length := by
  obtain ⟨tail, rfl, -⟩ := h
  rw [List.append_assoc, List.length_append]
  exact Nat.le_add_right _ _

/-- With all of a first part read, what has been read is that part and a beginning of the rest. -/
theorem Carries.got_append {first second : List β} {rest : Option (List β)}
    (h : Carries (first ++ second) got buf rest) (hlength : got.length = first.length) : got = first := by
  rw [h.got_eq, hlength, List.take_left]

/-- The writer has nothing left: what is not read is in the stream. -/
theorem Carries.done (h : Carries message got buf (some [])) : got ++ buf = message := by
  obtain ⟨tail, hmessage, htail⟩ := h
  rw [← htail [] rfl, List.append_nil] at hmessage
  exact hmessage

end Pipe
