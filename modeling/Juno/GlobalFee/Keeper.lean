import Juno.GlobalFee.Ante
import Juno.Sdk.Wasm
import Juno.Semantics.Atomic

/-! The x/globalfee keeper: its parameters, the message that updates them, and genesis.

`SetParams` writes the parameters as given. A genesis is checked by
`ValidateGenesis` before `InitGenesis` stores it, but `MsgUpdateParams` has no
`ValidateBasic` and its handler checks only the authority, so the stored prices
are whatever the last accepted update carried.
-/

set_option autoImplicit false

namespace Juno.GlobalFee

open Sdk

structure Keeper where
  codec : Bech32
  authority : String

structure MsgUpdateParams where
  authority : String
  params : Params

structure GenesisState where
  params : Params

def validateGenesis (data : GenesisState) : Except String Unit :=
  match data.params.validate with
  | .ok () => .ok ()
  | .error e => .error ("globalfee params: " ++ e)

def initGenesis (genesisState : GenesisState) : Params := genesisState.params

namespace Keeper

variable (k : Keeper)

/-- `msgServer.UpdateParams`; `SetParams` stores the parameters unchecked. -/
def updateParams (_ : Params) (req : MsgUpdateParams) : Except String Params := do
  if k.authority ≠ req.authority then
    throw ("invalid authority; expected " ++ k.authority ++ ", got " ++ req.authority)
  let _ ← k.codec.accAddressFromBech32 req.authority
  return req.params

end Keeper

theorem updateParams_ok_iff (k : Keeper) (s : Params) (req : MsgUpdateParams) (p : Params) :
    k.updateParams s req = .ok p ↔
      req.authority = k.authority ∧ (k.codec.decode req.authority).isSome ∧ p = req.params := by
  unfold Keeper.updateParams
  by_cases signer : k.authority = req.authority
  · simp only [signer, ne_eq, not_true_eq_false, if_false, true_and]
    cases decoded : k.codec.decode req.authority with
    | none => simp [Bech32.accAddressFromBech32, decoded, bind, Except.bind]
    | some a =>
      simp [Bech32.accAddressFromBech32, decoded, bind, Except.bind, pure, Except.pure, eq_comm]
  · have other : req.authority ≠ k.authority := fun h => signer h.symm
    simp [signer, other, throw, throwThe, MonadExceptOf.throw, bind, Except.bind]

theorem anteHandle_of_getGlobalFee_error (d : FeeDecorator) {ctx : Context} (check : ctx.isCheckTx = true)
    {params : Params} {bondDenom : String} {tx : Tx} {e : String}
    (h : FeeDecorator.getGlobalFee params bondDenom tx = .error e) :
    d.anteHandle ctx false false params bondDenom tx = .error e := by
  unfold FeeDecorator.anteHandle
  simp only [check, Bool.not_true, Bool.or_false, Bool.false_eq_true, if_false, h]
  rfl

/-! ## An update with a negative price

The authority's update to a price of `-1ujuno` per gas is stored as it is; from then on
`GetGlobalFee` panics on every transaction with gas, and in `CheckTx` the global fee
decorator rejects every transaction the fee-pay route does not flag. -/

def govAuthority : String := "juno10d07y265gmmuvt4z0w9aw880jnsr700jvss730"

def junoKeeper : Keeper := ⟨Bech32.identity, govAuthority⟩

def negativePriceUpdate : MsgUpdateParams := ⟨govAuthority, ⟨[⟨"ujuno", legacyNewDec (-1)⟩]⟩⟩

theorem updateParams_stores_negative_price :
    ∃ stored, junoKeeper.updateParams defaultParams negativePriceUpdate = .ok stored ∧
      stored.validate ≠ .ok () ∧
      ∀ (d : FeeDecorator) (ctx : Context) (tx : Tx), ctx.isCheckTx = true → tx.gas ≠ 0 →
        tx.gas.toNat < 2 ^ 63 → d.anteHandle ctx false false stored "ujuno" tx = .error "negative coin amount" := by
  refine ⟨negativePriceUpdate.params, (updateParams_ok_iff _ _ _ _).mpr ⟨rfl, rfl, rfl⟩, ?_, ?_⟩
  · -- `Validate` rejects the negative amount
    rw [Params.validate, validateMinimumGasPrices, ne_eq, validate_ok_iff]
    intro wf
    have nonneg := wf.nonneg _ List.mem_cons_self
    exact absurd nonneg (by decide)
  · intro d ctx tx check positive small
    exact anteHandle_of_getGlobalFee_error d check
      (getGlobalFee_negative rfl (by decide) (by decide) "ujuno" positive small)

end Juno.GlobalFee
