import Mathlib.Order.Basic

/-! The application helpers the contract-calling modules share.

`ExecuteContract` runs a contract's sudo entry point under a child gas meter and
turns every way the call can end into an error value: the error the contract
returns, or a recovered panic, which is an out-of-gas error when the panic value
is one of the store's gas panics. The contract itself is a parameter of the
callers: each call is described by how it ends.
-/

set_option autoImplicit false

namespace Juno.Helpers

def errContractNotRegistered : String := "contract not registered"
def errContractAlreadyRegistered : String := "contract already registered"
def errContractNotAdmin : String := "sender is not the contract admin"
def errContractNotCreator : String := "sender is not the contract creator"
def errInvalidCWContract : String := "invalid CosmWasm contract"
def errOutOfGas : String := "contract execution ran out of gas"
def errContractExecutionPanic : String := "contract execution panicked"

/-- `errorsmod.Wrapf`: the formatted message in front of the wrapped error. -/
def wrapf (err message : String) : String := message ++ ": " ++ err

/-- The value a panic carries, as `IsOutOfGasError` tells them apart. -/
inductive PanicValue where
  | outOfGas (descriptor : String)
  | gasOverflow (descriptor : String)
  | other (text : String)
  deriving DecidableEq, Repr

/-- How a call of a contract's entry point ends: it returns, with or without an
error, or it panics. -/
inductive SudoOutcome where
  | returned (err : Option String)
  | panicked (value : PanicValue)
  deriving DecidableEq, Repr

def PanicValue.text : PanicValue → String
  | .outOfGas descriptor | .gasOverflow descriptor => descriptor
  | .other text => text

def isOutOfGasError : PanicValue → Bool × String
  | .outOfGas descriptor => (true, descriptor)
  | .gasOverflow descriptor => (true, descriptor)
  | .other _ => (false, "")

/-- `ExecuteContract`: the error it leaves in `*err`, `none` for `nil`. -/
def executeContract (outcome : SudoOutcome) : Option String :=
  match outcome with
  | .returned err => err
  | .panicked value =>
    -- the deferred recover replaces whatever the call would have returned
    match isOutOfGasError value with
    | (true, msg) => some (wrapf errOutOfGas msg)
    | (false, _) => some (wrapf errContractExecutionPanic value.text)

end Juno.Helpers
