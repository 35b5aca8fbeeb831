import Juno.Semantics.Atomic
import Juno.Semantics.Store
import Juno.Semantics.PrefixStore
import Juno.Semantics.FirstFailure
import Juno.Semantics.Supply
import Juno.Arithmetic.FixedPoint
import Juno.Text.SplitOn
import Juno.Sdk.Coins
import Juno.Sdk.Bank
import Juno.Sdk.Tx
import Juno.Sdk.Wasm
import Juno.Mint.Minter
import Juno.Mint.BeginBlocker
import Juno.GlobalFee.Params
import Juno.GlobalFee.Ante
import Juno.GlobalFee.Keeper
import Juno.FeePay.Keeper
import Juno.FeePay.Ante
import Juno.FeePay.Ledger
import Juno.FeePay.Route
import Juno.FeePay.Usage
import Juno.FeeShare.Keeper
import Juno.FeeShare.Ante
import Juno.TokenFactory.Keeper
import Juno.TokenFactory.Authority
import Juno.TokenFactory.Denoms
import Juno.TokenFactory.Mint
import Juno.TokenFactory.Layout
import Juno.TokenFactory.Genesis
import Juno.TokenFactory.Supply
import Juno.App.Helpers
import Juno.App.Decorators
import Juno.App.Ante
import Juno.Clock.Keeper
import Juno.Clock.EndBlocker
import Juno.Clock.Registry
import Juno.CwHooks.Keeper
import Juno.CwHooks.Hooks
import Juno.CwHooks.Registry
import Juno.FeeShare.Registry
import Juno.FeeShare.Indexes
import Juno.Drip.Keeper
import Juno.Gov.Pagination
import Juno.App.Genesis
