import Mathlib.Data.String.Basic

/-! Splitting text on a separator of one character.

`String.splitOn` scans for its separator text and, after a partial match, resumes
the scan inside it. A separator of one character has no partial match, so the scan
is the one of `String.splitToList` on that character, and the pieces are those
`List.splitOn` cuts the characters into. The pieces of joined text are then read
back with the list lemmas, and joining the pieces gives the text back.
-/

set_option autoImplicit false

namespace Text

open String

theorem get_singleton (c : Char) : Pos.Raw.get (String.singleton c) 0 = c := by
  simp [Pos.Raw.get, Pos.Raw.utf8GetAux]

theorem splitOnAux_singleton (s : String) (c : Char) (b i : Pos.Raw) (r : List String) :
    s.splitOnAux (String.singleton c) b i 0 r = s.splitAux (· == c) b i r := by
  -- the recursion follows the scan, one character further each call
  rw [String.splitOnAux.eq_1, String.splitAux.eq_1]
  by_cases stop : Pos.Raw.atEnd s i = true
  · simp [stop]
  · have further : i.byteIdx < (Pos.Raw.next s i).byteIdx := Pos.Raw.lt_next s i
    have inside : i.byteIdx < s.utf8ByteSize := by simpa [Pos.Raw.atEnd] using stop
    simp only [stop, Bool.false_eq_true, if_false, get_singleton, dite_false]
    by_cases cut : (Pos.Raw.get s i == c) = true
    · -- a match of the whole separator: the piece ends where the separator starts
      rw [if_pos cut, if_pos cut]
      have last : Pos.Raw.atEnd (String.singleton c) (Pos.Raw.next (String.singleton c) 0) = true := by
        simp [Pos.Raw.atEnd, Pos.Raw.next, get_singleton]
      have back : (Pos.Raw.next s i).unoffsetBy (Pos.Raw.next (String.singleton c) 0) = i := by
        rw [beq_iff_eq] at cut
        simp [Pos.Raw.ext_iff, Pos.Raw.next, get_singleton, cut]
      rw [if_pos last, back]
      exact splitOnAux_singleton s c _ _ _
    · have same : i.unoffsetBy 0 = i := by simp
      rw [if_neg cut, if_neg cut, same]
      exact splitOnAux_singleton s c _ _ _
termination_by s.utf8ByteSize - i.byteIdx
decreasing_by all_goals omega

theorem splitOn_singleton (s : String) (c : Char) :
    s.splitOn (String.singleton c) = (s.toList.splitOn c).map String.ofList := by
  have nonempty : (String.singleton c == "") = false := by
    rw [beq_eq_false_iff_ne]
    intro empty
    have := congrArg String.toList empty
    simp at this
  rw [String.splitOn, nonempty, if_neg Bool.false_ne_true, splitOnAux_singleton]
  exact String.splitToList_of_valid s (· == c)

theorem splitOn_append_of_not_mem {a b : String} {c : Char} (absent : c ∉ a.toList) :
    (a ++ String.singleton c ++ b).splitOn (String.singleton c) = a :: b.splitOn (String.singleton c) := by
  rw [splitOn_singleton, splitOn_singleton, String.toList_append, String.toList_append, String.toList_singleton,
    List.append_assoc, List.singleton_append, List.splitOn_append_cons_of_beq _ _ (beq_self_eq_true c),
    List.splitOn_eq_singleton absent]
  simp

theorem intercalate_splitOn (s : String) (c : Char) :
    (String.singleton c).intercalate (s.splitOn (String.singleton c)) = s := by
  apply String.toList_injective
  rw [String.toList_intercalate, splitOn_singleton, List.map_map, String.toList_singleton]
  have roundTrip : String.toList ∘ String.ofList = id := funext fun l => String.toList_ofList
  rw [roundTrip, List.map_id, List.intercalate_splitOn]

theorem splitOn_ne_nil (s : String) (c : Char) : s.splitOn (String.singleton c) ≠ [] := by
  rw [splitOn_singleton]
  simp [List.splitOn, List.splitOnP_ne_nil]

end Text
