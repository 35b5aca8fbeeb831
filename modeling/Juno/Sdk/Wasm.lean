import Mathlib.Data.List.Basic

/-! Addresses and CosmWasm contract metadata, as the modules read them.

An account address is represented by its canonical bech32 text. Decoding a
string (`sdk.AccAddressFromBech32`) either fails or yields that canonical text,
which decodes to itself; `String()` of a decoded address is the canonical text.
Stores key an address by its bytes, which the codec gives as well.
The wasm keeper is read through the contract info stored for an address.
-/

set_option autoImplicit false

namespace Sdk

structure Bech32 where
  decode : String → Option String
  decode_canonical : ∀ s a, decode s = some a → decode a = some a
  /-- The bytes of a canonical address (`AccAddress.Bytes()`), in the order stores compare
  them. Canonical addresses share one human-readable part, so their bytes differ; other text
  is given bytes of no address. -/
  bytes : String → List Nat
  bytes_injective : Function.Injective bytes

/-- The character codes of a text: the bytes of the codecs below, which read text of their
own as an address. -/
def textBytes (s : String) : List Nat := s.toList.map Char.toNat

theorem textBytes_injective : Function.Injective textBytes := by
  intro a b same
  apply String.toList_injective
  exact List.map_injective_iff.mpr (fun x y codes => Char.toNat_inj.mp codes) same

def Bech32.identity : Bech32 := ⟨some, fun _ _ _ => rfl, textBytes, textBytes_injective⟩

/-- Every text the codec accepts is made of letters and digits, as bech32 text with a
human-readable part such as `juno` is: that part, the separator `1` and the data alphabet. -/
def Bech32.Alphanumeric (codec : Bech32) : Prop :=
  ∀ s a, codec.decode s = some a → ∀ c ∈ s.toList, c.isAlphanum = true

theorem Bech32.Alphanumeric.not_mem {codec : Bech32} (alphanumeric : codec.Alphanumeric) {s a : String}
    (decoded : codec.decode s = some a) {c : Char} (other : c.isAlphanum = false) : c ∉ s.toList :=
  fun mem => absurd (alphanumeric s a decoded c mem) (by simp [other])

theorem Bech32.decoded_valid (codec : Bech32) (blank : codec.decode "" = none) {s a : String}
    (decoded : codec.decode s = some a) : (codec.decode a).isSome ∧ a ≠ "" := by
  have canonical := codec.decode_canonical s a decoded
  refine ⟨by rw [canonical]; rfl, ?_⟩
  rintro rfl
  rw [blank] at canonical
  cases canonical

def Bech32.accAddressFromBech32 (codec : Bech32) (s : String) : Except String String :=
  match codec.decode s with
  | some a => .ok a
  | none => .error ("decoding bech32 failed: " ++ s)

theorem Bech32.accAddressFromBech32_ok_iff (codec : Bech32) (s a : String) :
    codec.accAddressFromBech32 s = .ok a ↔ codec.decode s = some a := by
  unfold Bech32.accAddressFromBech32
  cases codec.decode s <;> simp

/-- The fields of `wasmtypes.ContractInfo` the modules read. -/
structure ContractInfo where
  creator : String
  admin : String
  deriving DecidableEq, Repr

end Sdk
