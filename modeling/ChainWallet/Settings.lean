import ChainWallet.Failure

/-!
# Settings

A deployment is set up by environment variables. Every setting has a bundled value, and a variable
replaces it by its text as it stands; only the two spans of time are read as numbers, and a text that
is no number stops the start of the program.
-/

namespace ChainWallet

/-- The settings of a deployment. -/
structure Settings where
  priceApiV1Url : String
  priceApiV2Url : String
  fiatRateApiUrl : String
  /-- How long a request to a feed may take, in seconds. -/
  httpTimeout : Binary64
  /-- How long a sequencer waits for an app, in seconds. -/
  appSwitchTimeout : Binary64
  defaultCurrency : String
  crc20Symbols : String
  erc20Symbols : String
  priceRefreshCron : String
  databaseUrl : String
  deriving DecidableEq, Repr

namespace Settings

open Text

/-- The settings of a program in the directory `root` without any variables. -/
def bundled (root : String) : Settings where
  priceApiV1Url := "https://price-api.crypto.com/price/v1"
  priceApiV2Url := "https://price-api.crypto.com/price/v2"
  fiatRateApiUrl := "https://api.coinbase.com/v2"
  httpTimeout := .ofInt 30
  appSwitchTimeout := .ofInt 60
  defaultCurrency := "USD"
  crc20Symbols := ""
  erc20Symbols := ""
  priceRefreshCron := "*/5 * * * *"
  databaseUrl := "sqlite+aiosqlite:///" ++ root ++ "/crowallet.db"

/-- Whether an underscore may stand between two parts of a number: only between two digits. -/
def joinable (left right : List Char) : Bool :=
  left.getLast?.any isAsciiDigit && right.head?.any isAsciiDigit

/-- A number without the underscores between its digits. -/
def ungrouped? (cs : List Char) : Option (List Char) :=
  let parts := pieces '_' cs
  if (parts.zip parts.tail).all fun (l, r) => joinable l r then some parts.flatten else none

/-- The number of seconds that a text writes, with digits of any script and white space around it. -/
def seconds? (s : String) : Option Binary64 :=
  (((trim isWhiteSpace s.toList).mapM Numeral.asciiForm?).bind ungrouped?).bind Schema.bareNumber?

/-- A span of time: the bundled one, or the one of the variable, which must be a number. -/
def span (given : Option String) (bundled : Binary64) : Except Failure Binary64 :=
  match given with
  | none => .ok bundled
  | some s => match seconds? s with
    | some x => .ok x
    | none => .error (.unreadableNumber s)

/-- The settings of a program in the directory `root` with the given variables. -/
def ofEnvironment (root : String) (environment : List (String × String)) : Except Failure Settings := do
  let d := bundled root
  let setting (name standard : String) : String := (environment.lookup name).getD standard
  let httpTimeout ← span (environment.lookup "HTTP_TIMEOUT_SECONDS") d.httpTimeout
  let appSwitchTimeout ← span (environment.lookup "LEDGER_APP_SWITCH_TIMEOUT_SECONDS") d.appSwitchTimeout
  pure {
    priceApiV1Url := setting "CRYPTO_COM_PRICE_API_V1_URL" d.priceApiV1Url
    priceApiV2Url := setting "CRYPTO_COM_PRICE_API_V2_URL" d.priceApiV2Url
    fiatRateApiUrl := setting "COINBASE_TICKER_API_BASE_URL" d.fiatRateApiUrl
    httpTimeout
    appSwitchTimeout
    defaultCurrency := setting "DEFAULT_CURRENCY" d.defaultCurrency
    crc20Symbols := setting "CRC20_TOKEN_SYMBOLS" d.crc20Symbols
    erc20Symbols := setting "ERC20_TOKEN_SYMBOLS" d.erc20Symbols
    priceRefreshCron := setting "PRICE_REFRESH_CRON" d.priceRefreshCron
    databaseUrl := setting "DATABASE_URL" d.databaseUrl }

end Settings

end ChainWallet
