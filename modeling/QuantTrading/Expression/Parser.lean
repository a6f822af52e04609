import QuantTrading.Library.FloatText
import QuantTrading.Expression.Registry

/-! The reader of factor formulas: a tokenizer, and a parser with one level for each
precedence of operators. Its functions take the tokens that are left and return what they
-/
namespace QuantTrading.Expression
open Library List

/-- What the tokenizer takes from the unicode package: its classes of characters, which are
the usual ones on ASCII. -/
structure Unicode where
  (isSpace isDigit isLetter : Char → Bool)
  toUpper : Char → Char
  space_ascii : ∀ c : Char, c.toNat < 128 → isSpace c = decide (c = ' ' ∨ '\t' ≤ c ∧ c ≤ '\r')
  digit_ascii : ∀ c : Char, c.toNat < 128 → isDigit c = c.isDigit
  letter_ascii : ∀ c : Char, c.toNat < 128 → isLetter c = c.isAlpha
  upper_ascii : ∀ c : Char, c.toNat < 128 → toUpper c = c.toUpper

inductive Token where
  | number (val : String)
  | identifier (val : String)
  | lParen
  | rParen
  | comma
  | plus
  | minus
  | mul
  | div
  | pow
  | gt
  | lt
  | eq
  | ge
  | le
  | and
  | or
  | not
deriving DecidableEq, Repr

def Token.val : Token → String
  | .number val => val
  | .identifier val => val
  | .lParen => "("
  | .rParen => ")"
  | .comma => ","
  | .plus => "+"
  | .minus => "-"
  | .mul => "*"
  | .div => "/"
  | .pow => "^"
  | .gt => ">"
  | .lt => "<"
  | .eq => "=="
  | .ge => ">="
  | .le => "<="
  | .and => "AND"
  | .or => "OR"
  | .not => "NOT"

section Tokenizer
variable (u : Unicode)

/-- The rest of a number, from position `i` on. -/
def scanNumber : Nat → Bool → List Char → Except String (List Char)
  | _, _, [] => .ok []
  | i, hasDot, r :: runes =>
    if u.isDigit r ∨ r = '.' then
      if r = '.' ∧ hasDot then .error ("invalid number at position " ++ toString i)
      else do
        let val ← scanNumber (i + 1) (hasDot ∨ r = '.') runes
        return r :: val
    else .ok []

def wordRune (r : Char) : Bool := u.isLetter r ∨ u.isDigit r ∨ r = '_'

def wordToken (word : String) : Token :=
  match String.ofList (word.toList.map u.toUpper) with
  | "AND" => .and
  | "OR" => .or
  | "NOT" => .not
  | _ => .identifier word

def punctuation (i : Nat) (r : Char) (runes : List Char) : Except String (Option Token × Nat) :=
  match r with
  | '(' => .ok (some .lParen,0)
  | ')' => .ok (some .rParen,0)
  | ',' => .ok (some .comma,0)
  | '+' => .ok (some .plus,0)
  | '-' => .ok (some .minus,0)
  | '*' => .ok (some .mul,0)
  | '/' => .ok (some .div,0)
  | '^' => .ok (some .pow,0)
  | '>' => if runes.head? = some '=' then .ok (some .ge,1) else .ok (some .gt,0)
  | '<' => if runes.head? = some '=' then .ok (some .le,1) else .ok (some .lt,0)
  | '=' =>
    if runes.head? = some '=' then .ok (some .eq,1)
    else .error ("unexpected character '=' at position " ++ toString i)
  | r => .error ("unexpected character '" ++ String.singleton r ++ "' at position " ++ toString i)

/-- What begins with a rune: its token, if it is not a blank, and how many more runes it takes. -/
def lexeme (i : Nat) (r : Char) (runes : List Char) : Except String (Option Token × Nat) :=
  if u.isSpace r then .ok (none,0)
  else if u.isDigit r ∨ r = '.' then do
    let val ← scanNumber u (i + 1) (r = '.') runes
    return (some (.number (String.ofList (r :: val))),val.length)
  else if u.isLetter r ∨ r = '_' then
    let val := runes.takeWhile (wordRune u)
    .ok (some (wordToken u (String.ofList (r :: val))),val.length)
  else punctuation i r runes

/-- The tokens from position `i` on; `skip` runes belong to the last token. -/
def tokenizeFrom : Nat → Nat → List Char → Except String (List Token)
  | _, _, [] => .ok []
  | i, skip + 1, _ :: runes => tokenizeFrom (i + 1) skip runes
  | i, 0, r :: runes => do
    let (token,skip) ← lexeme u i r runes
    let tokens ← tokenizeFrom (i + 1) skip runes
    return token.toList ++ tokens

def tokenize (formula : String) : Except String (List Token) := tokenizeFrom u 0 0 formula.toList

end Tokenizer

abbrev Parse (A : Type) := List Token → Except String (A × List Token)

def unexpectedToken (tokens : List Token) : String := "unexpected token: " ++ (tokens.head?.map Token.val).getD ""

/-- One level of operators that associate to the left. The fuel bounds the operators read. -/
def leftAssocFrom (ops : List Token) (operand : Parse Node) : Nat → Node → Parse Node
  | 0, left, tokens => .ok (left,tokens)
  | _, left, [] => .ok (left,[])
  | fuel + 1, left, op :: tokens =>
    if op ∈ ops then do
      let (right,rest) ← operand tokens
      leftAssocFrom ops operand fuel (.binaryOp op.val left right) rest
    else .ok (left,op :: tokens)

def leftAssoc (ops : List Token) (operand : Parse Node) : Parse Node := fun tokens => do
  let (left,rest) ← operand tokens
  leftAssocFrom ops operand rest.length left rest

def signed (sign : Token) (op : String) (operand : Parse Node) : Parse Node
  | [] => operand []
  | token :: tokens =>
    if token = sign then do
      let (expr,rest) ← signed sign op operand tokens
      return (.unaryOp op expr,rest)
    else operand (token :: tokens)

section Levels
variable (expression : Parse Node)

def parseArgs : Nat → Parse (List Node)
  | 0, tokens => .error (unexpectedToken tokens)
  | fuel + 1, tokens => do
    let (arg,rest) ← expression tokens
    match rest with
    | .comma :: rest =>
      let (args,rest) ← parseArgs fuel rest
      return (arg :: args,rest)
    | rest => return ([arg],rest)

def callNode (name : String) (args : List Node) : Except String Node :=
  match (operator name).filter fun entry => entry.category = .crossSectional with
  | none => .ok (.function name args)
  | some entry =>
    if args.length ≠ entry.arity then
      .error (name ++ " requires exactly " ++ toString entry.arity ++ " argument(s), got " ++ toString args.length)
    else
      match args with
      | [] => .error "index out of range"
      | expr :: group => .ok (.crossSectional name expr (if entry.arity = 2 then group.head? else none))

def callArgs : Parse (List Node) := fun tokens =>
  if tokens.head? = some .rParen then .ok ([],tokens) else parseArgs expression tokens.length tokens

def matchRParen : List Token → Except String (List Token)
  | .rParen :: rest => .ok rest
  | _ => .error "expected ')'"

def parseFunctionCall (name : String) : Parse Node
  | .lParen :: tokens => do
    let (args,rest) ← callArgs expression tokens
    let rest ← matchRParen rest
    let node ← callNode name args
    return (node,rest)
  | _ => .error "expected '(' after function name"

def parsePrimary : Parse Node
  | .number val :: tokens =>
    match parseFloat val.toList with
    | some value => .ok (.literal value,tokens)
    | none => .error ("invalid number: " ++ val)
  | .identifier name :: tokens =>
    if tokens.head? = some .lParen then parseFunctionCall expression name tokens
    else .ok (.identifier name,tokens)
  | .lParen :: tokens => do
    let (expr,rest) ← expression tokens
    let rest ← matchRParen rest
    return (expr,rest)
  | tokens => .error (unexpectedToken tokens)

def parseUnary : Parse Node := signed .minus "neg" (parsePrimary expression)

def parsePower : Parse Node := leftAssoc [.pow] (parseUnary expression)

def parseMultiplicative : Parse Node := leftAssoc [.mul,.div] (parsePower expression)

def parseAdditive : Parse Node := leftAssoc [.plus,.minus] (parseMultiplicative expression)

def parseComparison : Parse Node := leftAssoc [.gt,.lt,.eq,.ge,.le] (parseAdditive expression)

def parseNot : Parse Node := signed .not "NOT" (parseComparison expression)

def parseAnd : Parse Node := leftAssoc [.and] (parseNot expression)

def parseOr : Parse Node := leftAssoc [.or] (parseAnd expression)

end Levels

def parseDepth : Nat → Parse Node
  | 0 => fun tokens => .error (unexpectedToken tokens)
  | depth + 1 => parseOr (parseDepth depth)

def parseExpression : Parse Node := fun tokens => parseDepth tokens.length tokens

def parse (u : Unicode) (formula : String) : Except String Node :=
  if formula.toList.all u.isSpace then .error "empty formula"
  else do
    let tokens ← (tokenize u formula).mapError ("tokenization failed: " ++ ·)
    let (ast,rest) ← (parseExpression tokens).mapError ("parse failed: " ++ ·)
    match rest with
    | [] => return ast
    | token :: _ => .error ("unexpected token: " ++ token.val)

def asciiUnicode : Unicode where
  isSpace c := c = ' ' ∨ '\t' ≤ c ∧ c ≤ '\r'
  isDigit c := c.isDigit
  isLetter c := c.isAlpha
  toUpper c := c.toUpper
  space_ascii _ _ := rfl
  digit_ascii _ _ := rfl
  letter_ascii _ _ := rfl
  upper_ascii _ _ := rfl

section Reading
variable {u : Unicode} {expression : Parse Node}

inductive Word (u : Unicode) : String → Prop where
  | intro {first : Char} {rest : List Char} (graphic : u.isSpace first = false)
      (unnumbered : ¬ (u.isDigit first = true ∨ first = '.')) (letter : u.isLetter first = true ∨ first = '_')
      (inner : ∀ c ∈ rest, wordRune u c = true)
      (free : wordToken u (String.ofList (first :: rest)) = .identifier (String.ofList (first :: rest))) :
      Word u (String.ofList (first :: rest))

def Token.Lexed (u : Unicode) : Token → Prop
  | .identifier name => Word u name
  | _ => True

def binaryTokens : List Token := [.pow,.mul,.div,.plus,.minus,.gt,.lt,.eq,.ge,.le,.and,.or]

inductive Parsed (u : Unicode) : Node → Prop where
  | literal {value : ℚ} : 0 ≤ value → Binary64.ofRat value = some value → Parsed u (.literal value)
  | identifier {name : String} : Word u name → Parsed u (.identifier name)
  | binaryOp {op : Token} {left right : Node} : op ∈ binaryTokens → Parsed u left → Parsed u right →
      Parsed u (.binaryOp op.val left right)
  | neg {expr : Node} : Parsed u expr → Parsed u (.unaryOp "neg" expr)
  | not {expr : Node} : Parsed u expr → Parsed u (.unaryOp "NOT" expr)
  | function {name : String} {args : List Node} : Word u name → callNode name args = .ok (.function name args) →
      (∀ arg ∈ args, Parsed u arg) → Parsed u (.function name args)
  | crossSectional {op : String} {expr : Node} {group : Option Node} : Word u op →
      callNode op (expr :: group.toList) = .ok (.crossSectional op expr group) → Parsed u expr →
      (∀ label ∈ group, Parsed u label) → Parsed u (.crossSectional op expr group)

/-- Whatever the function reads is made of the tokens it takes from the front, at least one. -/
def Reads {A : Type} (u : Unicode) (P : A → Prop) (p : Parse A) : Prop :=
  ∀ tokens x rest, p tokens = .ok (x,rest) →
    rest.length < tokens.length ∧ rest ⊆ tokens ∧ ((∀ token ∈ tokens, token.Lexed u) → P x)

variable {operand : Parse Node} {node : Node} {ops start tokens middle rest : List Token} {name : String} {P Q R : Prop}

def Taken (u : Unicode) (tokens rest : List Token) (P : Prop) : Prop :=
  rest.length < tokens.length ∧ rest ⊆ tokens ∧ ((∀ token ∈ tokens, token.Lexed u) → P)

theorem Taken.mono (taken : Taken u tokens rest P) (weaker : P → Q) : Taken u tokens rest Q :=
  ⟨taken.1,taken.2.1,fun lexed => weaker (taken.2.2 lexed)⟩

theorem Taken.first {token : Token} : Taken u (token :: rest) rest (token.Lexed u) :=
  ⟨Nat.lt_succ_self _,subset_cons_self _ _,fun lexed => lexed _ mem_cons_self⟩

theorem Taken.trans (first : Taken u tokens middle P) (second : Taken u middle rest Q) (both : P → Q → R) :
    Taken u tokens rest R :=
  ⟨second.1.trans first.1,List.Subset.trans second.2.1 first.2.1,fun lexed =>
    both (first.2.2 lexed) (second.2.2 fun token last => lexed token (first.2.1 last))⟩

theorem Taken.skip {token : Token} (taken : Taken u tokens rest P) : Taken u (token :: tokens) rest P :=
  Taken.first.trans taken fun _ holds => holds

section
variable (known : ops ⊆ binaryTokens) (reads : Reads u (Parsed u) operand)
include known reads

theorem leftAssocFrom_reads {fuel : Nat} {left : Node} (taken : Taken u start tokens (Parsed u left))
    (ok : leftAssocFrom ops operand fuel left tokens = .ok (node,rest)) : Taken u start rest (Parsed u node) := by
  induction fuel generalizing left tokens with
  | zero =>
    cases ok
    exact taken
  | succ fuel ih =>
    cases tokens with
    | nil =>
      cases ok
      exact taken
    | cons op tokens =>
      rw [leftAssocFrom] at ok
      split at ok
      next member =>
        obtain ⟨⟨right,middle⟩,rightOk,restOk⟩ := bind_eq_ok.mp ok
        have operand_taken : Taken u (op :: tokens) middle (Parsed u right) := Taken.skip (reads _ _ _ rightOk)
        exact ih (taken.trans operand_taken fun left right => .binaryOp (known member) left right) restOk
      · cases ok
        exact taken

theorem leftAssoc_reads : Reads u (Parsed u) (leftAssoc ops operand) := by
  intro tokens node rest ok
  obtain ⟨⟨left,middle⟩,leftOk,restOk⟩ := bind_eq_ok.mp ok
  exact leftAssocFrom_reads known reads (reads _ _ _ leftOk) restOk

end

def climb : List (List Token) → Parse Node → Parse Node
  | [], operand => operand
  | ops :: levels, operand => climb levels (leftAssoc ops operand)

def levels : List (List Token) := [[.pow],[.mul,.div],[.plus,.minus],[.gt,.lt,.eq,.ge,.le]]

theorem levels_known : ∀ ops ∈ levels, ops ⊆ binaryTokens := by decide

theorem parseComparison_eq (expression : Parse Node) : parseComparison expression = climb levels (parseUnary expression) :=
  rfl

theorem climb_reads {levels : List (List Token)} (known : ∀ ops ∈ levels, ops ⊆ binaryTokens)
    (reads : Reads u (Parsed u) operand) : Reads u (Parsed u) (climb levels operand) := by
  induction levels generalizing operand with
  | nil => exact reads
  | cons ops levels ih =>
    obtain ⟨here,later⟩ := forall_mem_cons.mp known
    exact ih later (leftAssoc_reads here reads)

theorem signed_reads {sign : Token} {op : String} (reads : Reads u (Parsed u) operand)
    (built : ∀ expr, Parsed u expr → Parsed u (.unaryOp op expr)) : Reads u (Parsed u) (signed sign op operand) := by
  intro tokens
  induction tokens with
  | nil => exact reads []
  | cons token tokens ih =>
    intro node rest ok
    rw [signed] at ok
    split at ok
    · obtain ⟨⟨expr,middle⟩,exprOk,done⟩ := bind_eq_ok.mp ok
      cases pure_eq_ok.mp done
      exact Taken.first.trans (ih _ _ exprOk) fun _ => built expr
    · exact reads _ _ _ ok

theorem parseArgs_reads (reads : Reads u (Parsed u) expression) (fuel : Nat) :
    Reads u (fun args => ∀ arg ∈ args, Parsed u arg) (parseArgs expression fuel) := by
  induction fuel with
  | zero =>
    intro tokens args rest ok
    cases ok
  | succ fuel ih =>
    intro tokens args rest ok
    obtain ⟨⟨arg,middle⟩,argOk,restOk⟩ := bind_eq_ok.mp ok
    have first : Taken u tokens middle (Parsed u arg) := reads _ _ _ argOk
    dsimp only at restOk
    split at restOk
    · obtain ⟨⟨args,last⟩,argsOk,done⟩ := bind_eq_ok.mp restOk
      cases pure_eq_ok.mp done
      exact first.trans (Taken.skip (ih _ _ _ argsOk)) fun arg args => forall_mem_cons.mpr ⟨arg,args⟩
    · cases pure_eq_ok.mp restOk
      exact first.mono forall_mem_singleton.mpr

theorem crossSectional_arity :
    ∀ entry ∈ operatorRegistry, entry.category = .crossSectional → entry.arity = 1 ∨ entry.arity = 2 := by
  decide

theorem callNode_parsed {args : List Node} (word : Word u name)
    (parsed : ∀ arg ∈ args, Parsed u arg) (ok : callNode name args = .ok node) : Parsed u node := by
  rw [callNode] at ok
  split at ok
  next plain =>
    cases ok
    exact .function word (by rw [callNode,plain]) parsed
  next entry cross =>
    split at ok
    · cases ok
    rename_i arity
    cases args with
    | nil => cases ok
    | cons expr labels =>
      obtain ⟨found,category⟩ := filter_eq_some_iff.mp cross
      have arities := crossSectional_arity entry (operator_spec found).1 (of_decide_eq_true category)
      have group : (if entry.arity = 2 then labels.head? else none).toList = labels := by
        rw [ne_eq,not_not] at arity
        rcases labels with _ | ⟨label,_ | _⟩
        · simp
        · simp [← arity]
        · simp only [length_cons] at arity
          omega
      have called : callNode name (expr :: labels) =
          .ok (.crossSectional name expr (if entry.arity = 2 then labels.head? else none)) := by
        simp only [callNode,cross,arity,if_false]
      cases ok
      refine .crossSectional word (by rw [group,called]) (parsed expr mem_cons_self) fun label member => ?_
      have listed := Option.mem_toList.mpr member
      rw [group] at listed
      exact parsed label (mem_cons_of_mem _ listed)

theorem matchRParen_eq_ok : matchRParen tokens = .ok rest ↔ tokens = .rParen :: rest := by
  constructor
  · intro ok
    rw [matchRParen.eq_def] at ok
    split at ok
    · cases ok
      rfl
    · cases ok
  · rintro rfl
    rfl

section
variable (reads : Reads u (Parsed u) expression)
include reads

theorem parseFunctionCall_reads (ok : parseFunctionCall expression name tokens = .ok (node,rest)) :
    Taken u tokens rest (Word u name → Parsed u node) := by
  rw [parseFunctionCall.eq_def] at ok
  split at ok
  next tokens =>
    obtain ⟨⟨args,middle⟩,argsOk,restOk⟩ := bind_eq_ok.mp ok
    obtain ⟨rest',closed,restOk⟩ := bind_eq_ok.mp restOk
    obtain ⟨node',called,done⟩ := bind_eq_ok.mp restOk
    cases matchRParen_eq_ok.mp closed
    cases pure_eq_ok.mp done
    have taken : Taken u tokens rest (∀ arg ∈ args, Parsed u arg) := by
      rw [callArgs] at argsOk
      split at argsOk
      · cases argsOk
        exact Taken.first.mono fun _ => forall_mem_nil _
      · exact Taken.trans (parseArgs_reads reads _ _ _ _ argsOk) Taken.first fun parsed _ => parsed
    exact taken.skip.mono fun parsed word => callNode_parsed word parsed called
  · cases ok

theorem parsePrimary_reads : Reads u (Parsed u) (parsePrimary expression) := by
  intro tokens node rest ok
  rw [parsePrimary.eq_def] at ok
  split at ok
  · split at ok
    next value read =>
      cases ok
      obtain ⟨nonneg,own⟩ := parseFloat_own read
      exact Taken.first.mono fun _ => .literal nonneg own
    · cases ok
  next name tokens =>
    split at ok
    · exact Taken.first.trans (parseFunctionCall_reads reads ok) fun word parsed => parsed word
    · cases ok
      exact Taken.first.mono .identifier
  next tokens =>
    obtain ⟨⟨expr,middle⟩,exprOk,restOk⟩ := bind_eq_ok.mp ok
    obtain ⟨rest',closed,done⟩ := bind_eq_ok.mp restOk
    cases matchRParen_eq_ok.mp closed
    cases pure_eq_ok.mp done
    have taken : Taken u tokens (.rParen :: rest) (Parsed u node) := reads _ _ _ exprOk
    exact taken.skip.trans Taken.first fun parsed _ => parsed
  · cases ok

theorem parseUnary_reads : Reads u (Parsed u) (parseUnary expression) :=
  signed_reads (parsePrimary_reads reads) fun _ => .neg

theorem parseNot_reads : Reads u (Parsed u) (parseNot expression) :=
  signed_reads (climb_reads levels_known (parseUnary_reads reads)) fun _ => .not

theorem parseAnd_reads : Reads u (Parsed u) (parseAnd expression) :=
  leftAssoc_reads (by decide) (parseNot_reads reads)

theorem parseOr_reads : Reads u (Parsed u) (parseOr expression) :=
  leftAssoc_reads (by decide) (parseAnd_reads reads)

end

theorem parseDepth_reads (depth : Nat) : Reads u (Parsed u) (parseDepth depth) := by
  induction depth with
  | zero =>
    intro tokens node rest ok
    cases ok
  | succ depth ih => exact parseOr_reads ih

end Reading

/-! ## Nesting

Parentheses are not nested deeper than there are tokens, so the depth never runs out.
-/

section Depth
variable {n : Nat} {p q : Parse Node}

/-- The functions do the same on fewer than `n` tokens. -/
def AgreeBelow {A : Type} (n : Nat) (p q : Parse A) : Prop := ∀ tokens : List Token, tokens.length < n → p tokens = q tokens

def Shortens {A : Type} (p : Parse A) : Prop := ∀ tokens x rest, p tokens = .ok (x,rest) → rest.length < tokens.length

theorem bind_congr_ok {A B : Type} {x : Except String A} {f g : A → Except String B}
    (same : ∀ a, x = .ok a → f a = g a) : x >>= f = x >>= g := by
  cases x with
  | error => rfl
  | ok a => exact same a rfl

section
variable (agree : AgreeBelow n p q)
include agree

theorem leftAssocFrom_agree (shortens : Shortens p) (ops : List Token) {fuel : Nat} {left : Node} {tokens : List Token}
    (short : tokens.length ≤ n) : leftAssocFrom ops p fuel left tokens = leftAssocFrom ops q fuel left tokens := by
  induction fuel generalizing left tokens with
  | zero => rfl
  | succ fuel ih =>
    cases tokens with
    | nil => rfl
    | cons op tokens =>
      rw [leftAssocFrom,leftAssocFrom,← agree tokens short]
      refine if_congr Iff.rfl (bind_congr_ok fun read ok => ih ?_) rfl
      exact (shortens tokens read.1 read.2 ok).le.trans (Nat.le_of_succ_le short)

theorem leftAssoc_agree (shortens : Shortens p) (ops : List Token) :
    AgreeBelow n (leftAssoc ops p) (leftAssoc ops q) := by
  intro tokens short
  rw [leftAssoc,leftAssoc,← agree tokens short]
  refine bind_congr_ok fun read ok => leftAssocFrom_agree agree shortens ops ?_
  exact ((shortens tokens read.1 read.2 ok).trans short).le

theorem signed_agree (sign : Token) (op : String) : AgreeBelow n (signed sign op p) (signed sign op q) := by
  intro tokens short
  induction tokens with
  | nil => exact agree [] short
  | cons token tokens ih => rw [signed,signed,ih (Nat.lt_of_succ_lt short),agree _ short]

theorem parseArgs_agree (shortens : Shortens p) (fuel : Nat) : AgreeBelow n (parseArgs p fuel) (parseArgs q fuel) := by
  induction fuel with
  | zero => exact fun _ _ => rfl
  | succ fuel ih =>
    intro tokens short
    rw [parseArgs,parseArgs,← agree tokens short]
    refine bind_congr_ok fun read ok => ?_
    have shorter := shortens tokens read.1 read.2 ok
    obtain ⟨arg,rest⟩ := read
    dsimp only at shorter ⊢
    split
    · rw [ih _ ((Nat.lt_of_succ_lt shorter).trans short)]
    · rfl

theorem parsePrimary_agree (shortens : Shortens p) : AgreeBelow (n + 1) (parsePrimary p) (parsePrimary q) := by
  intro tokens short
  rw [parsePrimary.eq_def,parsePrimary.eq_def]
  split
  · rfl
  next name tokens =>
    refine if_congr Iff.rfl ?_ rfl
    rw [parseFunctionCall.eq_def,parseFunctionCall.eq_def]
    split
    next tokens =>
      have fewer : tokens.length < n := Nat.lt_of_succ_lt_succ (Nat.lt_of_succ_lt short)
      rw [callArgs,callArgs,parseArgs_agree agree shortens _ tokens fewer]
    · rfl
  next tokens =>
    rw [agree tokens (Nat.lt_of_succ_lt_succ short)]
  · rfl

end

variable {u : Unicode}

theorem Reads.shortens {A : Type} {P : A → Prop} {p : Parse A} (reads : Reads u P p) : Shortens p :=
  fun tokens x rest ok => (reads tokens x rest ok).1

theorem climb_agree {levels : List (List Token)} (known : ∀ ops ∈ levels, ops ⊆ binaryTokens)
    (agree : AgreeBelow n p q) (reads : Reads u (Parsed u) p) : AgreeBelow n (climb levels p) (climb levels q) := by
  induction levels generalizing p q with
  | nil => exact agree
  | cons ops levels ih =>
    obtain ⟨here,later⟩ := forall_mem_cons.mp known
    exact ih later (leftAssoc_agree agree reads.shortens ops) (leftAssoc_reads here reads)

theorem parseOr_agree (agree : AgreeBelow n p q) (reads : Reads u (Parsed u) p) :
    AgreeBelow (n + 1) (parseOr p) (parseOr q) := by
  have primary := parsePrimary_agree agree reads.shortens
  have unary : AgreeBelow (n + 1) (parseUnary p) (parseUnary q) := signed_agree primary _ _
  have comparison : AgreeBelow (n + 1) (parseComparison p) (parseComparison q) := by
    rw [parseComparison_eq,parseComparison_eq]
    exact climb_agree levels_known unary (parseUnary_reads reads)
  have negation : AgreeBelow (n + 1) (parseNot p) (parseNot q) := signed_agree comparison _ _
  have conjunction : AgreeBelow (n + 1) (parseAnd p) (parseAnd q) :=
    leftAssoc_agree negation (parseNot_reads reads).shortens _
  exact leftAssoc_agree conjunction (parseAnd_reads reads).shortens _

theorem parseDepth_agree {depth depth' : Nat} (enough : n ≤ depth) (enough' : n ≤ depth') :
    AgreeBelow (n + 1) (parseDepth depth) (parseDepth depth') := by
  induction n generalizing depth depth' with
  | zero =>
    have empty (depth : Nat) : parseDepth depth [] = .error (unexpectedToken []) := by
      cases depth <;> rfl
    intro tokens short
    rw [length_eq_zero_iff.mp (Nat.lt_one_iff.mp short),empty,empty]
  | succ n ih =>
    obtain ⟨depth,rfl⟩ := Nat.exists_eq_add_of_le' (Nat.le_of_add_left_le enough)
    obtain ⟨depth',rfl⟩ := Nat.exists_eq_add_of_le' (Nat.le_of_add_left_le enough')
    exact parseOr_agree (ih (Nat.le_of_succ_le_succ enough) (Nat.le_of_succ_le_succ enough'))
      (parseDepth_reads (u := asciiUnicode) depth)

theorem parseExpression_eq : parseExpression = parseOr parseExpression := by
  funext tokens
  have deeper : parseExpression tokens = parseDepth (tokens.length + 1) tokens :=
    parseDepth_agree (n := tokens.length) le_rfl (Nat.le_succ _) tokens (Nat.lt_succ_self _)
  have nested : AgreeBelow tokens.length (parseDepth tokens.length) parseExpression := fun inner short =>
    parseDepth_agree short.le le_rfl inner (Nat.lt_succ_self _)
  rw [deeper]
  exact parseOr_agree nested (parseDepth_reads (u := asciiUnicode) _) tokens (Nat.lt_succ_self _)

end Depth

section Formulas
variable {u : Unicode} {runes : List Char} {token : Token} {formula : String} {node : Node}

theorem wordToken_lexed {first : Char} {rest : List Char} {word : Token} (graphic : u.isSpace first = false)
    (unnumbered : ¬ (u.isDigit first = true ∨ first = '.')) (letter : u.isLetter first = true ∨ first = '_')
    (inner : ∀ c ∈ rest, wordRune u c = true) (token : wordToken u (String.ofList (first :: rest)) = word) :
    word.Lexed u := by
  have kept := token
  rw [wordToken.eq_def] at token
  split at token
  · cases token
    trivial
  · cases token
    trivial
  · cases token
    trivial
  · cases token
    exact .intro graphic unnumbered letter inner kept

theorem punctuation_lexed {i skip : Nat} {r : Char}
    (ok : punctuation i r runes = .ok (some token,skip)) : token.Lexed u := by
  cases token with
  | identifier =>
    unfold punctuation at ok
    split at ok
    all_goals grind
  | _ => trivial

theorem lexeme_lexed {i skip : Nat} {r : Char}
    (ok : lexeme u i r runes = .ok (some token,skip)) : token.Lexed u := by
  rw [lexeme] at ok
  split at ok
  · cases ok
  rename_i graphic
  split at ok
  · obtain ⟨val,-,done⟩ := bind_eq_ok.mp ok
    cases pure_eq_ok.mp done
    trivial
  next unnumbered =>
    split at ok
    next letter =>
      -- Taking the equation apart by `cases` would evaluate the word.
      obtain ⟨named,-⟩ := Prod.mk.inj (Except.ok.inj ok)
      have inner : ∀ c ∈ runes.takeWhile (wordRune u), wordRune u c = true := fun c member => mem_takeWhile_imp member
      exact wordToken_lexed (Bool.eq_false_iff.mpr graphic) unnumbered letter inner (Option.some.inj named)
    · exact punctuation_lexed ok

theorem tokenizeFrom_lexed {i skip : Nat} {tokens : List Token}
    (ok : tokenizeFrom u i skip runes = .ok tokens) : ∀ token ∈ tokens, token.Lexed u := by
  induction runes generalizing i skip tokens with
  | nil =>
    cases ok
    exact forall_mem_nil _
  | cons r runes ih =>
    cases skip with
    | succ => exact ih ok
    | zero =>
      obtain ⟨⟨first,skip⟩,firstOk,restOk⟩ := bind_eq_ok.mp ok
      obtain ⟨rest,laterOk,done⟩ := bind_eq_ok.mp restOk
      cases pure_eq_ok.mp done
      intro token member
      rcases mem_append.mp member with head | tail
      · cases Option.mem_toList.mp head
        exact lexeme_lexed firstOk
      · exact ih laterOk token tail

theorem parse_eq_ok : parse u formula = .ok node ↔ ¬ formula.toList.all u.isSpace = true ∧
      ∃ tokens, tokenize u formula = .ok tokens ∧ parseExpression tokens = .ok (node,[]) := by
  rw [parse]
  split
  next blank =>
    exact ⟨fun ok => absurd ok (by simp),fun both => absurd blank both.1⟩
  next graphic =>
    rw [bind_eq_ok]
    refine ⟨?_,?_⟩
    · rintro ⟨tokens,tokensOk,restOk⟩
      obtain ⟨⟨ast,rest⟩,astOk,done⟩ := bind_eq_ok.mp restOk
      cases rest with
      | nil =>
        cases pure_eq_ok.mp done
        exact ⟨graphic,tokens,mapError_eq_ok.mp tokensOk,mapError_eq_ok.mp astOk⟩
      | cons => cases done
    · rintro ⟨-,tokens,tokensOk,astOk⟩
      exact ⟨tokens,mapError_eq_ok.mpr tokensOk,bind_eq_ok.mpr ⟨_,mapError_eq_ok.mpr astOk,rfl⟩⟩

theorem parse_parsed (ok : parse u formula = .ok node) : Parsed u node := by
  obtain ⟨-,tokens,tokensOk,astOk⟩ := parse_eq_ok.mp ok
  exact (parseDepth_reads _ _ _ _ astOk).2.2 (tokenizeFrom_lexed tokensOk)

end Formulas

end QuantTrading.Expression
