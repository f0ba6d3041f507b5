import ChainWallet.Api.Client
import ChainWallet.Api.Configuration
import ChainWallet.Api.Message
import ChainWallet.Api.Origin
import ChainWallet.Api.Prices
import ChainWallet.Asset
import ChainWallet.Binary64
import ChainWallet.Decimal.Arithmetic
import ChainWallet.Decimal.Basic
import ChainWallet.Decimal.Order
import ChainWallet.Decimal.Printer
import ChainWallet.Decimal.Reader
import ChainWallet.Executor
import ChainWallet.Failure
import ChainWallet.Json.Basic
import ChainWallet.Json.Printer
import ChainWallet.Json.Reader
import ChainWallet.Keyed
import ChainWallet.Ledger.AddressList
import ChainWallet.Ledger.AppSwitch
import ChainWallet.Ledger.Bench
import ChainWallet.Ledger.Connection
import ChainWallet.Ledger.Device
import ChainWallet.Ledger.DeviceError
import ChainWallet.Ledger.Interplay
import ChainWallet.Ledger.Path
import ChainWallet.Ledger.Rehearsal
import ChainWallet.Ledger.Sequencer
import ChainWallet.Ledger.Step
import ChainWallet.Market.Crowd
import ChainWallet.Market.Enquiry
import ChainWallet.Market.Feed
import ChainWallet.Market.Portfolio
import ChainWallet.Market.Price
import ChainWallet.Market.Rehearsal
import ChainWallet.Market.Resolver
import ChainWallet.Market.SlugCache
import ChainWallet.Market.Whitelist
import ChainWallet.Naming
import ChainWallet.Refresh
import ChainWallet.Schedule
import ChainWallet.Schema
import ChainWallet.Settings
import ChainWallet.Store.Basic
import ChainWallet.Text.Blank
import ChainWallet.Text.Digit
import ChainWallet.Text.Percent
import ChainWallet.Text.Punycode
import ChainWallet.Text.Quoted
import ChainWallet.Text.Surrogate
import ChainWallet.Text.UpperCase
import ChainWallet.Wallet.Creation
import ChainWallet.Wallet.Draft
import ChainWallet.Web.Address
import ChainWallet.Web.Host
import ChainWallet.Proofs.Prefixwise
import ChainWallet.Proofs.Results
import ChainWallet.Proofs.Ledger.StepOutcome
import ChainWallet.Proofs.Ledger.LastAnswer
import ChainWallet.Proofs.Ledger.RunOutcome
import ChainWallet.Proofs.Ledger.RunSuccess
import ChainWallet.Proofs.Ledger.AddressesKept
import ChainWallet.Proofs.Ledger.AddressesPresent
import ChainWallet.Proofs.Ledger.Restart
import ChainWallet.Proofs.Ledger.Course
import ChainWallet.Proofs.Ledger.LogOrder
import ChainWallet.Proofs.Ledger.Confirmation
import ChainWallet.Proofs.Wallet.FailedAssets
import ChainWallet.Proofs.Wallet.StoredAfterSuccess
import ChainWallet.Proofs.Wallet.StoredAddress
import ChainWallet.Proofs.Market.Transparency
import ChainWallet.Proofs.Store.Maps
import ChainWallet.Proofs.Wallet.SaveAndLoad
import ChainWallet.Proofs.Store.LastSave
import ChainWallet.Proofs.Ledger.Transcript
import ChainWallet.Proofs.Ledger.ListenerFailure
import ChainWallet.Proofs.Store.Rewriting
import ChainWallet.Proofs.Wallet.Migration
import ChainWallet.Proofs.Wallet.OtherWallets
import ChainWallet.Proofs.Market.PriceTold
import ChainWallet.Proofs.Market.Refreshing
import ChainWallet.Proofs.Market.Conduct
import ChainWallet.Proofs.Market.Turns
import ChainWallet.Proofs.Market.Fairness
import ChainWallet.Proofs.Market.OneSearch
import ChainWallet.Proofs.Market.OneDirectory
import ChainWallet.Proofs.Ledger.PickedAddress
import ChainWallet.Proofs.Market.Outages
import ChainWallet.Proofs.Decimal.Rounding
import ChainWallet.Proofs.Market.FirstSupported
import ChainWallet.Proofs.Decimal.PlainText
import ChainWallet.Proofs.Market.FiatPrice
import ChainWallet.Proofs.Text.Pieces
import ChainWallet.Proofs.Text.UpperCase
import ChainWallet.Proofs.Decimal.CanonicalText
import ChainWallet.Proofs.Market.PriceKey
import ChainWallet.Proofs.Market.OwnPrice
import ChainWallet.Proofs.Decimal.NumericOrder
import ChainWallet.Proofs.Market.Ranking
import ChainWallet.Proofs.Market.ListedSymbols
import ChainWallet.Proofs.Ledger.AlignedList
import ChainWallet.Proofs.Ledger.UnnoticedCall
import ChainWallet.Proofs.Ledger.ConnectionCheck
import ChainWallet.Proofs.Wallet.MigratedAssets
import ChainWallet.Proofs.Market.UnusablePrice
import ChainWallet.Proofs.Api.PagePath
import ChainWallet.Proofs.Ledger.SharedPath
import ChainWallet.Proofs.Text.PercentSpelling
import ChainWallet.Proofs.Api.AssetPages
