import ChainWallet.Text.Blank
import ChainWallet.Text.UpperCase

/-!
# Whitelisted token symbols

Anybody can issue a token with any symbol, so the price of a token is looked up only for symbols on a
list. A setting names them between commas, in any letter case and with blanks around them; while it
names none, a bundled list of well-known tokens holds.
-/

namespace ChainWallet.Whitelist

open Text

def bundledCrc20 : List String :=
  ["WCRO", "VVS", "USDC", "USDT", "DAI", "WBTC", "WETH", "BUSD", "TONIC", "SINGLE", "FER", "MMF",
    "ATOM", "SHIB", "DOGE", "MATIC", "AVAX", "FTM", "BIFI", "CRYSTL"]

def bundledErc20 : List String :=
  ["USDT", "USDC", "DAI", "WBTC", "WETH", "LINK", "UNI", "AAVE", "MATIC", "SHIB", "MANA", "SAND",
    "AXS", "ENJ", "GRT", "COMP", "MKR", "CRV", "SUSHI", "YFI", "BAT", "CHZ", "APE", "LRC", "1INCH",
    "QNT"]

/-- The symbols that a setting names, each once. -/
def ofSetting (setting : String) : List String :=
  let named := ((pieces ',' setting.toList).map (trim isBlank)).filter (!·.isEmpty)
  (named.map fun cs => upper (String.ofList cs)).eraseDups

/-- The symbols of a setting, or the bundled ones if it names none. -/
def effective (setting : String) (bundled : List String) : List String :=
  let named := ofSetting setting
  if named.isEmpty then bundled else named

example : ofSetting " vvs, VVS,,tonic " = ["VVS", "TONIC"] ∧ ofSetting " , " = [] := by decide +kernel

end ChainWallet.Whitelist

namespace ChainWallet

/-- The whitelisted symbols of the two families of tokens. -/
structure Whitelists where
  crc20 : List String
  erc20 : List String
  deriving DecidableEq, Repr

def Whitelists.ofSettings (crc20 erc20 : String) : Whitelists where
  crc20 := Whitelist.effective crc20 Whitelist.bundledCrc20
  erc20 := Whitelist.effective erc20 Whitelist.bundledErc20

end ChainWallet
