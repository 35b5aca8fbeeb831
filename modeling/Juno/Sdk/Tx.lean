import Juno.Sdk.Coins

/-! Transactions as the ante handlers see them.

A message is known by its Go type where the modelled code tests it (`msg.(*T)`);
every other message only by its type URL. An authz `MsgExec` carries packed
messages that either all unpack or make `GetMessages` fail; a handler that
recurses into them meets the messages of a transaction in pre-order. The fee of `gas`
units at a decimal price is `ceil(price * gas)`, as every fee check computes it.
-/

set_option autoImplicit false

namespace Sdk

inductive Msg
  | executeContract (sender contract : String) (funds : Coins)
  /-- authz `MsgExec`: `none` when its packed messages do not unpack. -/
  | exec (grantee : String) (msgs : Option (List Msg))
  | timeoutOnClose
  | createValidator (maxChangeRate : LegacyDec)
  | editValidator (validatorAddress : String) (commissionRate : Option LegacyDec)
  | other (typeUrl : String)

namespace Msg

/-- `sdk.MsgTypeURL`. -/
def typeUrl : Msg → String
  | executeContract .. => "/cosmwasm.wasm.v1.MsgExecuteContract"
  | exec .. => "/cosmos.authz.v1beta1.MsgExec"
  | timeoutOnClose => "/ibc.core.channel.v1.MsgTimeoutOnClose"
  | createValidator _ => "/cosmos.staking.v1beta1.MsgCreateValidator"
  | editValidator .. => "/cosmos.staking.v1beta1.MsgEditValidator"
  | other typeUrl => typeUrl

/-- Every message of a list at any depth, in the order a recursive walk meets them: a
message, the inner messages of an authz `MsgExec`, then the messages after it. -/
def preorder : List Msg → List Msg
  | [] => []
  | msg :: msgs =>
    let inner := match msg with
      | .exec _ (some innerMsgs) => preorder innerMsgs
      | _ => []
    msg :: (inner ++ preorder msgs)

@[simp] theorem preorder_nil : preorder [] = [] := by
  rw [preorder]

@[simp] theorem preorder_exec_some (grantee : String) (innerMsgs msgs : List Msg) :
    preorder (.exec grantee (some innerMsgs) :: msgs) =
      .exec grantee (some innerMsgs) :: (preorder innerMsgs ++ preorder msgs) := by
  rw [preorder]

end Msg

structure Tx where
  msgs : List Msg
  fee : Coins
  gas : UInt64
  feePayer : String
  feeGranter : Option String

/-- What an ante handler reads from `sdk.Context`. -/
structure Context where
  blockHeight : Int
  isCheckTx : Bool
  minGasPrices : DecCoins

def DecCoin.empty : DecCoin := ⟨"", legacyZeroDec⟩

/-- `price.Mul(LegacyNewDec(gas)).Ceil().RoundInt()`. -/
def ceilFee (price : LegacyDec) (gas : Int) : Int :=
  ((price.mul (legacyNewDec gas)).ceil).roundInt

theorem ceilFee_eq (price : LegacyDec) (gas : Int) :
    ceilFee price gas = FixedPoint.ceilQuo precisionUnit (price.raw * gas) := by
  unfold ceilFee legacyNewDec
  rw [FixedPoint.Fixed.mul_ofInt precisionUnit_pos, FixedPoint.Fixed.roundInt_ceil precisionUnit_pos]
  rfl

theorem ceilFee_nonneg {price : LegacyDec} {gas : Int} (hp : 0 ≤ price.raw) (hg : 0 ≤ gas) :
    0 ≤ ceilFee price gas := by
  rw [ceilFee_eq]
  exact FixedPoint.ceilQuo_nonneg precisionUnit_pos (Int.mul_nonneg hp hg)

theorem ceilFee_legacyNewDec (price gas : Int) : ceilFee (legacyNewDec price) gas = price * gas := by
  rw [ceilFee_eq]
  have exact : (legacyNewDec price).raw * gas = price * gas * precisionUnit := by
    simp only [legacyNewDec, FixedPoint.Fixed.raw_ofInt]
    rw [Int.mul_right_comm]
  rw [exact]
  exact FixedPoint.ceilQuo_mul_unit precisionUnit_pos _

end Sdk
