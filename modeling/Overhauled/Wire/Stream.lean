/-
  Overhauled.Wire.Stream — a byte stream that is received in pieces.

  A call that asks for `asked` bytes gets some of what is left of the stream, one byte at
  least, or nothing when the stream has ended (`piece`); how many is up to the system. What
  a receiver has collected and what is still to come are together always the same bytes
  (`piece_append_rest`), so that a property of those is untouched by how the pieces fall.
-/

import Overhauled.Wire.Bytes

namespace Overhauled.Wire

/-- What a call that asks for `asked` bytes gets of the bytes to come; `more` is how many
    the system has to hand beyond the first. -/
def piece (asked more : Nat) (rest : Bytes) : Bytes := rest.take (min asked (more + 1))

section
variable {asked more len : Nat} {got rest : Bytes}

theorem length_piece_le : (piece asked more rest).length ≤ asked := by
  rw [piece, List.length_take]
  omega

theorem piece_eq_nil_iff : piece asked more rest = [] ↔ asked = 0 ∨ rest = [] := by
  rw [piece, List.take_eq_nil_iff]
  exact or_congr_left (by omega)

/-- The bytes collected and those to come. -/
theorem piece_append_rest :
    (got ++ piece asked more rest) ++ rest.drop (piece asked more rest).length = got ++ rest := by
  have hpiece : piece asked more rest <+: rest := List.take_prefix _ rest
  rw [List.append_assoc, List.prefix_iff_eq_append.mp hpiece]

theorem length_drop_piece_lt (h : piece asked more rest ≠ []) :
    (rest.drop (piece asked more rest).length).length < rest.length := by
  have hpos := List.length_pos_iff.mpr h
  have hrest : rest ≠ [] := fun hnil => h (piece_eq_nil_iff.mpr (Or.inr hnil))
  have := List.length_pos_iff.mpr hrest
  rw [List.length_drop]
  omega

end

end Overhauled.Wire
