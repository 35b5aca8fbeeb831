import Juno.TokenFactory.Keeper
import Juno.Text.SplitOn

/-! Tokenfactory denominations, `factory/{creator}/{subdenom}`.

GetTokenDenom joins the module prefix, the creator and the subdenom with slashes.
DeconstructDenom cuts at every slash, decodes the second piece as the creator and
joins the pieces after it back into the subdenom. GetTokenDenom refuses a creator
with a slash, so the first two cuts are the two slashes it wrote, and joining the
rest gives back the subdenom, slashes included. A canonical creator decodes to
itself, so DeconstructDenom returns the pair GetTokenDenom was given, and two such
pairs never make the same denomination.
-/

set_option autoImplicit false

namespace Juno.TokenFactory

open Sdk

theorem slash_eq : "/" = String.singleton '/' := rfl

theorem getTokenDenom_ok {creator subdenom denom : String} (h : getTokenDenom creator subdenom = .ok denom) :
    '/' ∉ creator.toList ∧ validateDenom denom = true ∧
      denom = moduleDenomPrefix ++ "/" ++ creator ++ "/" ++ subdenom := by
  unfold getTokenDenom at h
  split_ifs at h with long long' slash
  dsimp only at h
  split at h
  · rename_i valid
    cases h
    rw [String.contains_char_eq, decide_eq_true_eq] at slash
    exact ⟨slash, valid, rfl⟩
  · cases h

theorem splitOn_tokenDenom {creator subdenom : String} (noSlash : '/' ∉ creator.toList) :
    (moduleDenomPrefix ++ "/" ++ creator ++ "/" ++ subdenom).splitOn "/" =
      moduleDenomPrefix :: creator :: subdenom.splitOn "/" := by
  have factory : '/' ∉ moduleDenomPrefix.toList := by decide
  -- the first two cuts are the slashes around the creator
  have grouped : moduleDenomPrefix ++ "/" ++ creator ++ "/" ++ subdenom =
      moduleDenomPrefix ++ "/" ++ (creator ++ "/" ++ subdenom) := by
    simp only [String.append_assoc]
  rw [grouped, slash_eq, Text.splitOn_append_of_not_mem factory, Text.splitOn_append_of_not_mem noSlash]

theorem deconstructDenom_of_no_slash (codec : Bech32) {denom : String} (noSlash : '/' ∉ denom.toList)
    (p : String × String) : deconstructDenom codec denom ≠ .ok p := by
  have single : denom.splitOn "/" = [denom] := by
    rw [slash_eq, Text.splitOn_singleton, List.splitOn_eq_singleton noSlash]
    simp
  unfold deconstructDenom
  split_ifs
  · exact nofun
  · -- one piece is fewer than the three a factory denomination has
    dsimp only
    rw [single, if_pos (by simp)]
    exact nofun

/-- DeconstructDenom of a denomination in the tokenfactory layout returns its creator, decoded,
and its subdenom. -/
theorem deconstructDenom_layout (codec : Bech32) {creator subdenom : String} (noSlash : '/' ∉ creator.toList)
    (valid : validateDenom (moduleDenomPrefix ++ "/" ++ creator ++ "/" ++ subdenom) = true) :
    deconstructDenom codec (moduleDenomPrefix ++ "/" ++ creator ++ "/" ++ subdenom) =
      match codec.decode creator with
      | none => .error "Invalid creator address"
      | some creatorAddr => .ok (creatorAddr, subdenom) := by
  have pieces : 3 ≤ (moduleDenomPrefix :: creator :: subdenom.splitOn "/").length := by
    have := List.length_pos_iff.mpr (Text.splitOn_ne_nil subdenom '/')
    simp only [List.length_cons, slash_eq]
    omega
  unfold deconstructDenom
  rw [if_neg (by simp [valid]), splitOn_tokenDenom noSlash, if_neg (by omega)]
  -- the creator is the second piece, the subdenom the rest joined again
  cases decoded : codec.decode creator <;>
    simp only [List.getD_cons_zero, List.getD_cons_succ, ne_eq, not_true_eq_false, if_false, List.drop_succ_cons,
      List.drop_zero, slash_eq, Text.intercalate_splitOn, decoded]

theorem deconstructDenom_creator_canonical {codec : Bech32} {denom creator subdenom : String}
    (h : deconstructDenom codec denom = .ok (creator, subdenom)) : codec.decode creator = some creator := by
  unfold deconstructDenom at h
  dsimp only at h
  split_ifs at h
  split at h
  · cases h
  · rename_i creatorAddr decoded
    cases h
    exact codec.decode_canonical _ _ decoded

theorem validateDenom_of_deconstructDenom {codec : Bech32} {denom : String} {p : String × String}
    (h : deconstructDenom codec denom = .ok p) : validateDenom denom = true := by
  unfold deconstructDenom at h
  by_contra invalid
  rw [Bool.not_eq_true] at invalid
  simp [invalid] at h

theorem separator_not_mem_of_validateDenom {denom : String} (valid : validateDenom denom = true) :
    '|' ∉ denom.toList := by
  intro mem
  unfold validateDenom at valid
  cases listed : denom.toList with
  | nil =>
    rw [listed] at mem
    cases mem
  | cons c rest =>
    rw [listed] at valid mem
    simp only [Bool.and_eq_true, decide_eq_true_eq, List.all_eq_true] at valid
    rcases List.mem_cons.mp mem with rfl | inRest
    · exact absurd valid.1.1.1 (by decide)
    · exact absurd (valid.2 _ inRest) (by decide)

theorem deconstructDenom_inverts_getTokenDenom (codec : Bech32) {creator subdenom denom : String}
    (canonical : codec.decode creator = some creator) (h : getTokenDenom creator subdenom = .ok denom) :
    deconstructDenom codec denom = .ok (creator, subdenom) ∧
      ∀ creator' subdenom', codec.decode creator' = some creator' → getTokenDenom creator' subdenom' = .ok denom →
        creator' = creator ∧ subdenom' = subdenom := by
  have inverse : ∀ {c s d}, codec.decode c = some c → getTokenDenom c s = .ok d →
      deconstructDenom codec d = .ok (c, s) := by
    intro c s d decoded made
    obtain ⟨noSlash, valid, rfl⟩ := getTokenDenom_ok made
    rw [deconstructDenom_layout codec noSlash valid, decoded]
  refine ⟨inverse canonical h, ?_⟩
  intro creator' subdenom' canonical' h'
  -- both pairs are what DeconstructDenom reads off the one denomination
  have same := (inverse canonical' h').symm.trans (inverse canonical h)
  rw [Except.ok.injEq, Prod.mk.injEq] at same
  exact same

theorem slashed_subdenom_round_trips :
    getTokenDenom "juno1creator" "atom/sikka" = .ok "factory/juno1creator/atom/sikka" ∧
      deconstructDenom Bech32.identity "factory/juno1creator/atom/sikka" = .ok ("juno1creator", "atom/sikka") := by
  have made : getTokenDenom "juno1creator" "atom/sikka" = .ok "factory/juno1creator/atom/sikka" := by
    rw [getTokenDenom, String.contains_char_eq]
    decide
  exact ⟨made, (deconstructDenom_inverts_getTokenDenom Bech32.identity rfl made).1⟩

end Juno.TokenFactory
