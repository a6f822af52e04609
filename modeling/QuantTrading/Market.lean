import QuantTrading.Fees

/-! Market structure read off a symbol or a display name: boards, risk-warning names
and their daily buying cap, daily price limits rounded to the cent, and order lots.
-/
namespace QuantTrading

inductive Board where
  | mainSH | mainSZ | chiNext | star | bse | etf | bond | index | lof | unknown
deriving DecidableEq

namespace Board

def dailyPriceLimit : Board → ℚ
  | chiNext | star => 20/100
  | bse => 30/100
  | _ => 10/100

def hasCageRule : Board → Bool
  | mainSH | mainSZ => true
  | _ => false

def cagePercent (board : Board) : ℚ := if board.hasCageRule then 2/100 else 0

def isSpace (c : Char) : Bool :=
  let n := c.toNat
  (9 ≤ n ∧ n ≤ 13) ∨ n = 32 ∨ n = 0x85 ∨ n = 0xA0 ∨ n = 0x1680 ∨ (0x2000 ≤ n ∧ n ≤ 0x200A) ∨
    n = 0x2028 ∨ n = 0x2029 ∨ n = 0x202F ∨ n = 0x205F ∨ n = 0x3000

def trim (space : Char → Bool) (text : List Char) : List Char :=
  ((text.dropWhile space).reverse.dropWhile space).reverse

/-- `strings.ToUpper` on the letters an exchange suffix can be spelled with; the long s
is the only other character whose upper case is one of them. -/
def toUpper (c : Char) : Char := if c.toNat = 0x17F then 'S' else c.toUpper

def isAllDigits (text : List Char) : Bool := text ≠ [] ∧ text.all Char.isDigit

def splitLastDot (text : List Char) : Option (List Char × List Char) :=
  let suffix := text.reverse.takeWhile (· ≠ '.')
  let rest := text.reverse.drop (suffix.length + 1)
  if suffix.length < text.length ∧ rest ≠ [] then some (rest.reverse,suffix.reverse) else none

def splitTsCode (tsCode : String) : Option (List Char × List Char) :=
  let text := trim isSpace tsCode.toList
  let parts :=
    match splitLastDot text with
    | some (code,exchange) => some (code,exchange.map toUpper)
    | none =>
      if 8 ≤ (String.ofList text).utf8ByteSize then
        some (text.take (text.length - 2),(text.drop (text.length - 2)).map toUpper)
      else none
  match parts with
  | none => none
  | some (code,exchange) =>
    if isAllDigits code ∧ (exchange = ['S','H'] ∨ exchange = ['S','Z'] ∨ exchange = ['B','J']) then
      some (code,exchange)
    else none

def classifySH (code : List Char) : Board :=
  let prefix3 := String.ofList (code.take 3)
  let prefix1 := code.head?
  if prefix3 ∈ ["688","689"] then star
  else if prefix3 ∈ ["600","601","603","605"] then mainSH
  else if prefix3 ∈ ["510","511","512","513","515","516","517","518","588"] then etf
  else if prefix3 ∈ ["500","501"] then lof
  else if prefix1 = some '1' then bond
  else if prefix3 = "000" then index
  else if prefix1 = some '9' then mainSH
  else unknown

def classifySZ (code : List Char) : Board :=
  let prefix3 := String.ofList (code.take 3)
  let prefix1 := code.head?
  if prefix3 ∈ ["300","301"] then chiNext
  else if prefix3 ∈ ["000","001","002"] then mainSZ
  else if prefix3 = "159" then etf
  else if prefix3 ∈ ["160","161","162","163","164","165","166","167","168","169"] then lof
  else if prefix1 = some '1' then bond
  else if prefix3 = "399" then index
  else if prefix1 = some '2' then mainSZ
  else unknown

def classifyBJ (code : List Char) : Board :=
  if code.head? ∈ [some '8',some '4',some '9'] then bse else unknown

def classifySymbol (tsCode : String) : Board :=
  match splitTsCode tsCode with
  | none => unknown
  | some (code,exchange) =>
    if code.length < 6 then unknown
    else if exchange = ['S','H'] then classifySH code
    else if exchange = ['S','Z'] then classifySZ code
    else classifyBJ code

example : classifySymbol " 688001.sh" = star := by decide
example : classifySymbol "830001BJ" = bse := by decide

end Board

def isRiskWarningName (name : String) : Bool :=
  let text := Board.trim (fun c => c = ' ' ∨ c = '\t') name.toList
  ["*ST","S*ST","SST","ST"].any fun mark => mark.toList.isPrefixOf text

def riskWarningDailyBuyCap (symbol : String) : ℚ :=
  match Board.classifySymbol symbol with
  | .bse => 200000
  | .star => 0
  | .mainSH | .mainSZ | .chiNext => 500000
  | _ => 200000

def stLimitChangeDate : Time := Time.date 2026 7 6

structure PriceLimitInput where
  (symbol name : String)
  tradeDays : Int
  asOf : Time

def resolvePriceLimit (input : PriceLimitInput) (cfg : PriceLimitConfig) (newStockDays : Int) : ℚ :=
  if 0 < newStockDays ∧ input.tradeDays < newStockDays ∧ 0 < cfg.new then cfg.new
  else
    let board := Board.classifySymbol input.symbol
    if isRiskWarningName input.name then
      match board with
      | .chiNext | .star | .bse => board.dailyPriceLimit
      | _ =>
        let before := if cfg.stBefore ≤ 0 then 5/100 else cfg.stBefore
        let after := if cfg.st ≤ 0 then 10/100 else cfg.st
        if ¬ input.asOf.isZero ∧ input.asOf < stLimitChangeDate then before else after
    else if board = .unknown ∧ 0 < cfg.normal then cfg.normal
    else board.dailyPriceLimit

/-- `math.Round`: to the nearest integer, halves away from zero. -/
def mathRound (x : ℚ) : ℤ := if x < 0 then -⌊-x + 1/2⌋ else ⌊x + 1/2⌋

def roundToCent (price : ℚ) : ℚ := mathRound (price * 100) / 100

def limitPrices (prevClose rate : ℚ) : ℚ × ℚ :=
  (roundToCent (prevClose * (1 + rate)),roundToCent (prevClose * (1 - rate)))

def normalizeOrderQuantity (shares : ℚ) (symbol : String) : ℚ :=
  if shares < 1 then 0
  else match Board.classifySymbol symbol with
    | .star => if shares < 200 then 200 else ⌊shares⌋
    | .bse => if shares < 100 then 100 else ⌊shares⌋
    | _ => if ⌊shares / 100⌋ < 1 then 100 else ⌊shares / 100⌋ * 100

end QuantTrading
