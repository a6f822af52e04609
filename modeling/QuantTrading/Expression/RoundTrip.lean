import QuantTrading.Expression.Printer

/-! What the reader makes of a printed tree. Operands of arithmetic and comparisons are printed
without parentheses of their own where they are negations, a sign is printed as a call, and
an exponent is no part of a number; every other tree is read back as it was.
-/
namespace QuantTrading.Expression
open Library List
open Option (map_eq_bind map₂ map₂_eq_some_iff mem_toList)

def isNot : Node → Bool
  | .unaryOp op _ => op = "NOT"
  | _ => false

def isLogical (op : String) : Bool := op = "AND" ∨ op = "OR"

def absorb (op : String) (left right : Node) : Node :=
  match left with
  | .unaryOp negation expr => .unaryOp negation (.binaryOp op expr right)
  | left => .binaryOp op left right

mutual

def reread : Node → Option Node
  | .literal value => if FixedRange value then some (.literal value) else none
  | .identifier name => some (.identifier name)
  | .binaryOp op left right =>
    if isLogical op then map₂ (.binaryOp op) (reread left) (reread right)
    else if isNot right then none
    else map₂ (if isNot left then absorb op else .binaryOp op) (reread left) (reread right)
  | .unaryOp op expr => (reread expr).map fun expr => if op = "NOT" then .unaryOp op expr else .function op [expr]
  | .function name args => (rereadAll args).map (.function name)
  | .crossSectional op expr none => (reread expr).map fun expr => .crossSectional op expr none
  | .crossSectional op expr (some group) =>
    map₂ (fun expr group => .crossSectional op expr (some group)) (reread expr) (reread group)

def rereadAll : List Node → Option (List Node)
  | [] => some []
  | arg :: args => map₂ cons (reread arg) (rereadAll args)

end

section Gives
variable {A : Type} {result : Except String (A × List Token)} {operand : Parse Node} {ops tokens rest more : List Token}

/-- The outcome expected of a function of the parser: a tree and the tokens left, or a failure.
A failure may show later: it leaves an identifier where nothing can go on with one. -/
def Gives (result : Except String (A × List Token)) (expected : Option A) (rest : List Token) : Prop :=
  match expected with
  | some x => result = .ok (x,rest)
  | none => ∀ x left, result = .ok (x,left) → ∃ name more, left = .identifier name :: more

theorem gives_error {err : String} : Gives (.error err : Except String (A × List Token)) none rest :=
  fun _ _ ok => absurd ok (by simp)

variable {name : String}

theorem gives_stuck {x : A} : Gives (.ok (x,.identifier name :: more)) none rest := by
  rintro _ _ ⟨⟩
  exact ⟨name,more,rfl⟩

/-- Reading on after a reading that stood where it was expected to stand, or nowhere. -/
theorem Gives.bind {B : Type} {expected : Option A} {middle : List Token}
    {f : A × List Token → Except String (B × List Token)} {g : A → Option B} (given : Gives result expected middle)
    (goes : ∀ x, expected = some x → Gives (f (x,middle)) (g x) rest)
    (stuck : ∀ x name more, Gives (f (x,.identifier name :: more)) none rest) :
    Gives (result >>= f) (expected.bind g) rest := by
  cases expected with
  | some x =>
    have read : result = .ok (x,middle) := given
    rw [read]
    exact goes x rfl
  | none =>
    intro y left ok
    obtain ⟨⟨x,middle⟩,read,restOk⟩ := bind_eq_ok.mp ok
    obtain ⟨name,more,rfl⟩ := given x middle read
    exact stuck x name more y left restOk

theorem identifier_not_binary : Token.identifier name ∉ binaryTokens := by
  simp [binaryTokens]

theorem leftAssocFrom_stop (ends : ∀ token ∈ tokens.head?, token ∉ ops) (fuel : Nat) (left : Node) :
    leftAssocFrom ops operand fuel left tokens = .ok (left,tokens) := by
  cases fuel with
  | zero => rfl
  | succ =>
    cases tokens with
    | nil => rfl
    | cons token =>
      exact if_neg (ends token rfl)

section
variable (known : ops ⊆ binaryTokens)
include known

theorem leftAssocFrom_stuck (fuel : Nat) (left : Node) :
    Gives (leftAssocFrom ops operand fuel left (.identifier name :: more)) none rest := by
  rw [leftAssocFrom_stop]
  · exact gives_stuck
  · rintro token ⟨⟩ member
    exact identifier_not_binary (known member)

theorem leftAssoc_pass {expected : Option Node} (given : Gives (operand tokens) expected rest)
    (ends : ∀ token ∈ rest.head?, token ∉ ops) : Gives (leftAssoc ops operand tokens) expected rest := by
  have read : Gives (leftAssoc ops operand tokens) (expected.bind some) rest :=
    given.bind (fun node _ => leftAssocFrom_stop ends _ node) fun node _ _ => leftAssocFrom_stuck known _ node
  rwa [Option.bind_fun_some] at read

theorem leftAssoc_op {op : Token} {left right : Option Node} (member : op ∈ ops)
    (left_given : Gives (operand tokens) left (op :: more)) (right_given : Gives (operand more) right rest)
    (ends : ∀ token ∈ rest.head?, token ∉ ops) :
    Gives (leftAssoc ops operand tokens) (map₂ (.binaryOp op.val) left right) rest := by
  refine left_given.bind (fun left _ => ?_) fun left _ _ => leftAssocFrom_stuck known _ left
  change Gives (leftAssocFrom ops operand (more.length + 1) left (op :: more)) (right.map (.binaryOp op.val left)) rest
  rw [leftAssocFrom,if_pos member,map_eq_bind]
  exact right_given.bind (fun right _ => leftAssocFrom_stop ends _ _) fun right _ _ => leftAssocFrom_stuck known _ _

end

theorem signed_pass {sign : Token} {op : String} (head : tokens.head? ≠ some sign) :
    signed sign op operand tokens = operand tokens := by
  cases tokens with
  | nil => rfl
  | cons =>
    exact if_neg fun same => head (congrArg some same)

theorem signed_gives {sign : Token} {op : String} {expected : Option Node}
    (given : Gives (signed sign op operand tokens) expected rest) :
    Gives (signed sign op operand (sign :: tokens)) (expected.map (.unaryOp op)) rest := by
  rw [signed,if_pos rfl,map_eq_bind]
  exact given.bind (fun _ _ => rfl) fun _ _ _ => gives_stuck

section
variable {levels : List (List Token)} (known : ∀ ops ∈ levels, ops ⊆ binaryTokens)
include known

theorem climb_pass {expected : Option Node} (given : Gives (operand tokens) expected rest)
    (ends : ∀ ops ∈ levels, ∀ token ∈ rest.head?, token ∉ ops) : Gives (climb levels operand tokens) expected rest := by
  induction levels generalizing operand with
  | nil => exact given
  | cons ops levels ih =>
    obtain ⟨known,known_later⟩ := forall_mem_cons.mp known
    obtain ⟨ends,ends_later⟩ := forall_mem_cons.mp ends
    exact ih known_later (leftAssoc_pass known given ends) ends_later

theorem climb_op {op : Token} (member : ∃ ops ∈ levels, op ∈ ops) {left right : Option Node}
    (left_given : Gives (operand tokens) left (op :: more)) (right_given : Gives (operand more) right rest)
    (ends : ∀ ops ∈ levels, ∀ token ∈ rest.head?, token ∉ ops) :
    Gives (climb levels operand tokens) (map₂ (.binaryOp op.val) left right) rest := by
  induction levels generalizing operand with
  | nil =>
    obtain ⟨_,none_,-⟩ := member
    exact absurd none_ not_mem_nil
  | cons ops levels ih =>
    obtain ⟨known,known_later⟩ := forall_mem_cons.mp known
    obtain ⟨ends,ends_later⟩ := forall_mem_cons.mp ends
    by_cases here : op ∈ ops
    · exact climb_pass known_later (leftAssoc_op known here left_given right_given ends) ends_later
    · have later := (exists_mem_cons_iff ..).mp member |>.resolve_left here
      refine ih known_later later (leftAssoc_pass known left_given ?_) (leftAssoc_pass known right_given ends) ends_later
      rintro token ⟨⟩
      exact here

end

end Gives

section Trees
variable {u : Unicode} {node : Node} {rest tokens : List Token} {args : List Node} {expected : Option Node} {fuel : Nat}
  {name : String}

theorem tokens_head (parsed : Parsed u node) : ∃ first later, node.tokens = first :: later ∧ first ≠ .minus ∧
    first ≠ .rParen ∧ (isNot node = false → first ≠ .not) := by
  cases parsed with
  | @literal value nonneg own =>
    by_cases fixed : FixedRange value
    · exact ⟨_,_,literalTokens_fixed nonneg own fixed,by simp,by simp,by simp⟩
    · obtain ⟨_,_,_,-,-,-,-,tokens⟩ := literalTokens_far nonneg own fixed
      exact ⟨_,_,tokens,by simp,by simp,by simp⟩
  | neg => exact ⟨_,_,rfl,by simp [unaryToken],by simp [unaryToken],by simp [unaryToken]⟩
  | not => exact ⟨_,_,rfl,by simp [unaryToken],by simp [unaryToken],by simp [isNot]⟩
  | @crossSectional op expr group word called parsed labels =>
    cases group with
    | none | some _ => exact ⟨_,_,rfl,by simp,by simp,by simp⟩
  | _ => exact ⟨_,_,rfl,by simp,by simp,by simp⟩

def closers : List Token := [.rParen,.comma,.and,.or]

/-- How a tree's tokens are read: as an operand, unless it is a negation, and as a clause. What
follows a negation's keyword is read as an operand of its own. -/
structure Rereads (node : Node) : Prop where
  operand : isNot node = false → ∀ rest, rest.head? ≠ some .lParen →
    Gives (parsePrimary parseExpression (node.tokens ++ rest)) (reread node) rest
  clause : ∀ rest, (∀ token ∈ rest.head?, token ∈ closers) →
    Gives (parseNot parseExpression (node.tokens ++ rest)) (reread node) rest
  negated : ∀ expr, node = .unaryOp "NOT" expr → ∀ rest,
    Gives (parsePrimary parseExpression (.lParen :: expr.tokens ++ .rParen :: rest)) (reread expr) rest

theorem closers_end : ∀ ops ∈ levels, ∀ token ∈ closers, token ∉ ops := by decide

theorem parseNot_of_primary (plain : tokens.head? ≠ some .not) (unsigned : tokens.head? ≠ some .minus)
    (given : Gives (parsePrimary parseExpression tokens) expected rest) (ends : ∀ token ∈ rest.head?, token ∈ closers) :
    Gives (parseNot parseExpression tokens) expected rest := by
  rw [parseNot,signed_pass plain]
  refine climb_pass levels_known ?_ fun ops level token first => closers_end ops level token (ends token first)
  rw [parseUnary,signed_pass unsigned]
  exact given

section
variable (parsed : Parsed u node) (plain : isNot node = false)
  (operand : ∀ rest, rest.head? ≠ some .lParen → Gives (parsePrimary parseExpression (node.tokens ++ rest)) (reread node) rest)
include parsed plain operand

theorem clause_of_operand : ∀ rest, (∀ token ∈ rest.head?, token ∈ closers) →
      Gives (parseNot parseExpression (node.tokens ++ rest)) (reread node) rest := by
  intro rest ends
  obtain ⟨first,later,tokens,unsigned,-,unnegated⟩ := tokens_head parsed
  have apart : rest.head? ≠ some .lParen := fun opens => absurd (ends _ opens) (by decide)
  refine parseNot_of_primary ?_ ?_ (operand rest apart) ends
  · rw [tokens]
    exact fun same => unnegated plain (Option.some.inj same)
  · rw [tokens]
    exact fun same => unsigned (Option.some.inj same)

theorem Rereads.of_operand : Rereads node where
  operand _ := operand
  clause := clause_of_operand parsed plain operand
  negated expr same := by
    rw [same] at plain
    cases plain

end

theorem expression_of_clause (given : Gives (parseNot parseExpression tokens) expected rest)
    (ends : ∀ token ∈ rest.head?, token = .rParen ∨ token = .comma) : Gives (parseExpression tokens) expected rest := by
  rw [parseExpression_eq,parseOr]
  refine leftAssoc_pass (by decide) (leftAssoc_pass (by decide) given ?_) ?_
  · intro token first
    rcases ends token first with rfl | rfl <;> decide
  · intro token first
    rcases ends token first with rfl | rfl <;> decide

namespace Rereads

theorem unary (rereads : Rereads node) (parsed : Parsed u node) (apart : rest.head? ≠ some .lParen) :
    Gives (parseUnary parseExpression (node.tokens ++ rest)) (if isNot node then none else reread node) rest := by
  obtain ⟨first,later,tokens,unsigned,-,-⟩ := tokens_head parsed
  rw [parseUnary,signed_pass (by rw [tokens]; exact fun same => unsigned (Option.some.inj same))]
  cases negation : isNot node with
  | false => exact rereads.operand negation rest apart
  | true =>
    cases parsed with
    | not => exact gives_error
    | _ => cases negation

theorem expression (rereads : Rereads node) (ends : ∀ token ∈ rest.head?, token = .rParen ∨ token = .comma) :
    Gives (parseExpression (node.tokens ++ rest)) (reread node) rest := by
  refine expression_of_clause (rereads.clause rest fun token first => ?_) ends
  rcases ends token first with rfl | rfl <;> decide

end Rereads

theorem parsePrimary_paren {inner : List Token}
    (given : Gives (parseExpression (inner ++ .rParen :: rest)) expected (.rParen :: rest)) :
    Gives (parsePrimary parseExpression (.lParen :: inner ++ .rParen :: rest)) expected rest := by
  have read : Gives (parsePrimary parseExpression (.lParen :: inner ++ .rParen :: rest)) (expected.bind some) rest :=
    given.bind (fun _ _ => rfl) fun _ _ _ => gives_error
  rwa [Option.bind_fun_some] at read

theorem length_rereadAll {args' : List Node} (read : rereadAll args = some args') : args'.length = args.length := by
  induction args generalizing args' with
  | nil =>
    cases read
    rfl
  | cons arg args ih =>
    obtain ⟨first,rest,-,later,rfl⟩ := map₂_eq_some_iff.mp read
    rw [length_cons,length_cons,ih later]

theorem length_le_joinedTokens (some_ : ∀ arg ∈ args, arg.tokens ≠ []) :
    args.length ≤ (Node.joinedTokens args).length := by
  induction args with
  | nil => exact le_rfl
  | cons arg args ih =>
    have first := length_pos_iff.mpr (some_ arg mem_cons_self)
    have later := ih fun other member => some_ other (mem_cons_of_mem _ member)
    cases args with
    | nil => exact first
    | cons =>
      simp only [Node.joinedTokens,length_append,length_cons] at later ⊢
      omega

theorem parseArgs_last {expression : Parse Node} {arg : Option Node}
    (given : Gives (expression tokens) arg (.rParen :: rest)) :
    Gives (parseArgs expression (fuel + 1) tokens) (map₂ cons arg (some [])) (.rParen :: rest) := by
  exact given.bind (fun _ _ => rfl) fun _ _ _ => gives_stuck

theorem parseArgs_more {expression : Parse Node} {more : List Token} {arg : Option Node} {args : Option (List Node)}
    (given : Gives (expression tokens) arg (.comma :: more)) (later : Gives (parseArgs expression fuel more) args rest) :
    Gives (parseArgs expression (fuel + 1) tokens) (map₂ cons arg args) rest := by
  refine given.bind (fun arg _ => ?_) fun _ _ _ => gives_stuck
  rw [map_eq_bind]
  exact later.bind (fun _ _ => rfl) fun _ _ _ => gives_stuck

theorem parseArgs_gives (some_ : args ≠ []) (rereads : ∀ arg ∈ args, Rereads arg) (enough : args.length ≤ fuel) :
    Gives (parseArgs parseExpression fuel (Node.joinedTokens args ++ .rParen :: rest)) (rereadAll args)
      (.rParen :: rest) := by
  induction args generalizing fuel with
  | nil => exact absurd rfl some_
  | cons arg args ih =>
    obtain ⟨fuel,rfl⟩ := Nat.exists_eq_add_of_le' (Nat.le_of_add_left_le enough)
    have first := rereads arg mem_cons_self
    cases args with
    | nil => exact parseArgs_last (first.expression fun token head => .inl (Option.some.inj head).symm)
    | cons =>
      have later := ih (cons_ne_nil _ _) (fun other member => rereads other (mem_cons_of_mem _ member))
        (Nat.le_of_succ_le_succ enough)
      rw [Node.joinedTokens,append_assoc]
      exact parseArgs_more (first.expression fun token head => .inr (Option.some.inj head).symm) later

theorem parsePrimary_call (build : List Node → Node)
    (called : ∀ args', args'.length = args.length → callNode name args' = .ok (build args'))
    (parsed : ∀ arg ∈ args, Parsed u arg) (rereads : ∀ arg ∈ args, Rereads arg) (rest : List Token) :
    Gives (parsePrimary parseExpression (.identifier name :: .lParen :: Node.joinedTokens args ++ .rParen :: rest))
      ((rereadAll args).map build) rest := by
  have given : Gives (callArgs parseExpression (Node.joinedTokens args ++ .rParen :: rest)) (rereadAll args)
      (.rParen :: rest) := by
    cases args with
    | nil => rfl
    | cons arg args =>
      obtain ⟨first,later,tokens,-,closed,-⟩ := tokens_head (parsed arg mem_cons_self)
      have some_ : ∀ other ∈ arg :: args, other.tokens ≠ [] := fun other member => by
        obtain ⟨first,later,tokens,-⟩ := tokens_head (parsed other member)
        rw [tokens]
        exact cons_ne_nil _ _
      have open_ : (Node.joinedTokens (arg :: args) ++ .rParen :: rest).head? ≠ some .rParen := by
        cases args with
        | nil | cons _ _ =>
          rw [Node.joinedTokens,tokens]
          exact fun same => closed (Option.some.inj same)
      rw [callArgs,if_neg open_]
      refine parseArgs_gives (cons_ne_nil _ _) rereads ((length_le_joinedTokens some_).trans ?_)
      rw [length_append]
      exact Nat.le_add_right _ _
  have primary (inner : List Token) : parsePrimary parseExpression (.identifier name :: .lParen :: inner) =
      (callArgs parseExpression inner).bind fun read => do
        let rest ← matchRParen read.2
        let node ← callNode name read.1
        return (node,rest) := rfl
  rw [cons_append,cons_append,primary,map_eq_bind]
  refine given.bind (fun args' read => ?_) fun _ _ _ => gives_error
  exact bind_eq_ok.mpr ⟨_,rfl,bind_eq_ok.mpr ⟨_,called args' (length_rereadAll read),rfl⟩⟩

theorem callNode_function (called : callNode name args = .ok (.function name args)) (args' : List Node) :
    callNode name args' = .ok (.function name args') := by
  rw [callNode] at called
  split at called
  · rename_i plain
    rw [callNode,plain]
  · split at called
    · cases called
    · split at called <;> cases called

def crossNode (op : String) : List Node → Node
  | [] => .function op []
  | expr :: group => .crossSectional op expr group.head?

theorem callNode_crossNode {op : String} {expr : Node} {group : Option Node}
    (called : callNode op (expr :: group.toList) = .ok (.crossSectional op expr group))
    (same : args.length = (expr :: group.toList).length) : callNode op args = .ok (crossNode op args) := by
  rw [callNode] at called ⊢
  split at called
  · cases called
  split at called
  · cases called
  rename_i arity
  cases args with
  | nil => cases same
  | cons first labels =>
    simp only [same,arity,if_false,crossNode]
    split
    · rfl
    rename_i single
    simp only [if_neg single] at called
    cases called
    rw [length_eq_zero_iff.mp (Nat.succ.inj same)]
    rfl

theorem binary_cases {op : Token} (known : op ∈ binaryTokens) :
    op = .and ∨ op = .or ∨ (∃ ops ∈ levels, op ∈ ops) ∧ isLogical op.val = false := by
  revert op
  decide

theorem reread_arithmetic {op : String} (plain : isLogical op = false) {left right : Node} :
    reread (.binaryOp op left right) = map₂ (if isNot left then absorb op else .binaryOp op) (reread left)
      (if isNot right then none else reread right) := by
  rw [reread,plain,if_neg Bool.false_ne_true]
  split
  · rw [Option.map₂_none_right]
  · rfl

theorem reread_absorb {op : String} {expr : Node} {right : Option Node} :
    map₂ (absorb op) (reread (.unaryOp "NOT" expr)) right =
      (map₂ (.binaryOp op) (reread expr) right).map (.unaryOp "NOT") := by
  rw [reread]
  cases reread expr <;> cases right <;> rfl

section Operation
variable {left right : Node} {op : Token} (left_parsed : Parsed u left) (right_parsed : Parsed u right)
  (left_rereads : Rereads left) (right_rereads : Rereads right)
include left_parsed right_parsed left_rereads right_rereads

/-- An arithmetic operation or a comparison in its parentheses: a negation on the left takes
all of it, one on the right is refused. -/
theorem arithmetic_clause (leveled : ∃ ops ∈ levels, op ∈ ops) (plain : isLogical op.val = false) :
    Gives (parseNot parseExpression (left.tokens ++ op :: (right.tokens ++ .rParen :: rest)))
      (reread (.binaryOp op.val left right)) (.rParen :: rest) := by
  have ends : ∀ ops ∈ levels, ∀ token ∈ (Token.rParen :: rest).head?, token ∉ ops := by
    rintro ops level token ⟨⟩
    exact closers_end ops level _ (by decide)
  have apart : (op :: (right.tokens ++ .rParen :: rest)).head? ≠ some .lParen := by
    obtain ⟨ops,member,inside⟩ := leveled
    intro same
    cases Option.some.inj same
    revert ops
    decide
  have right_given : Gives (parseUnary parseExpression (right.tokens ++ .rParen :: rest))
      (if isNot right then none else reread right) (.rParen :: rest) := right_rereads.unary right_parsed (by simp)
  cases negation : isNot left with
  | false =>
    obtain ⟨first,later,tokens,-,-,unnegated⟩ := tokens_head left_parsed
    have left_given := left_rereads.unary left_parsed apart
    rw [negation] at left_given
    have given := climb_op levels_known leveled left_given right_given ends
    rw [parseNot,signed_pass (by rw [tokens]; exact fun same => unnegated negation (Option.some.inj same)),
      reread_arithmetic plain,negation]
    exact given
  | true =>
    cases left_parsed with
    | @not expr parsed =>
      have left_given : Gives (parseUnary parseExpression (.lParen :: expr.tokens ++ .rParen :: op :: (right.tokens ++
          .rParen :: rest))) (reread expr) (op :: (right.tokens ++ .rParen :: rest)) := by
        exact left_rereads.negated expr rfl _
      have given : Gives (signed .not "NOT" (parseComparison parseExpression) (.lParen :: expr.tokens ++
          .rParen :: op :: (right.tokens ++ .rParen :: rest))) (map₂ (.binaryOp op.val) (reread expr)
          (if isNot right then none else reread right)) (.rParen :: rest) := by
        exact climb_op levels_known leveled left_given right_given ends
      have taken := signed_gives given
      rw [reread_arithmetic plain,negation,if_pos rfl,reread_absorb]
      simpa [Node.tokens,unaryToken,parseNot] using taken
    | _ => cases negation

theorem operation_expression (known : op ∈ binaryTokens) (rest : List Token) :
    Gives (parseExpression (left.tokens ++ op :: (right.tokens ++ .rParen :: rest)))
      (reread (.binaryOp op.val left right)) (.rParen :: rest) := by
  have right_given := right_rereads.clause (.rParen :: rest) (by simp [closers])
  rcases binary_cases known with rfl | rfl | ⟨leveled,plain⟩
  · have left_given := left_rereads.clause (.and :: (right.tokens ++ .rParen :: rest)) (by simp [closers])
    rw [parseExpression_eq,parseOr]
    exact leftAssoc_pass (by decide) (leftAssoc_op (by decide) (by decide) left_given right_given (by simp)) (by simp)
  · have left_given := left_rereads.clause (.or :: (right.tokens ++ .rParen :: rest)) (by simp [closers])
    rw [parseExpression_eq,parseOr]
    exact leftAssoc_op (by decide) (by decide) (leftAssoc_pass (by decide) left_given (by simp))
      (leftAssoc_pass (by decide) right_given (by simp)) (by simp)
  · refine expression_of_clause ?_ fun token head => .inl (Option.some.inj head).symm
    exact arithmetic_clause left_parsed right_parsed left_rereads right_rereads leveled plain

end Operation

/-- Every tree the parser builds is printed and read as `reread` says. -/
theorem Parsed.rereads (parsed : Parsed u node) : Rereads node := by
  induction parsed with
  | @literal value nonneg own =>
    refine .of_operand (.literal nonneg own : Parsed u _) rfl fun rest _ => ?_
    rw [Node.tokens,reread]
    by_cases fixed : FixedRange value
    · obtain ⟨-,read⟩ := formatG_fixed nonneg own fixed
      rw [literalTokens_fixed nonneg own fixed,if_pos fixed]
      simp only [Gives,singleton_append,parsePrimary,String.toList_ofList,read]
    · obtain ⟨significand,sign,power,-,-,-,-,tokens⟩ := literalTokens_far nonneg own fixed
      rw [tokens,if_neg fixed]
      intro node left ok
      simp only [cons_append,parsePrimary] at ok
      split at ok
      · cases ok
        exact ⟨_,_,rfl⟩
      · cases ok
  | @identifier name word =>
    refine .of_operand (.identifier word) rfl fun rest apart => ?_
    simp only [Gives,reread,Node.tokens,singleton_append,parsePrimary,apart,if_false]
  | @binaryOp op left right known left_parsed right_parsed left_rereads right_rereads =>
    refine .of_operand (.binaryOp known left_parsed right_parsed) rfl fun rest _ => ?_
    have inner := operation_expression left_parsed right_parsed left_rereads right_rereads known rest
    have closed : Gives (parsePrimary parseExpression (.lParen :: (left.tokens ++ op :: right.tokens) ++ .rParen :: rest))
        (reread (.binaryOp op.val left right)) rest := parsePrimary_paren (by simpa using inner)
    rw [Node.tokens,opToken_val known]
    simpa using closed
  | @neg expr parsed rereads =>
    refine .of_operand (.neg parsed) rfl fun rest _ => ?_
    have called (args : List Node) : callNode "neg" args = .ok (.function "neg" args) := rfl
    have call := parsePrimary_call (.function "neg") (fun args _ => called args) (forall_mem_singleton.mpr parsed)
      (forall_mem_singleton.mpr rereads) rest
    have same : (rereadAll [expr]).map (.function "neg") = reread (.unaryOp "neg" expr) := by
      rw [reread,rereadAll]
      cases reread expr <;> rfl
    rw [same] at call
    simpa [Node.tokens,Node.joinedTokens,unaryToken] using call
  | @not expr parsed rereads =>
    have closed (rest : List Token) :
        Gives (parsePrimary parseExpression (.lParen :: expr.tokens ++ .rParen :: rest)) (reread expr) rest :=
      parsePrimary_paren (rereads.expression fun token head => .inl (Option.some.inj head).symm)
    refine ⟨fun plain => absurd plain (by simp [isNot]),fun rest ends => ?_,fun other same => ?_⟩
    · have given := signed_gives (parseNot_of_primary (by simp) (by simp) (closed rest) ends)
      simpa [Node.tokens,unaryToken,reread,parseNot] using given
    · cases same
      exact closed
  | @function name args word called parsed rereads =>
    refine .of_operand (.function word called parsed) rfl fun rest _ => ?_
    have call := parsePrimary_call (.function name) (fun args' _ => callNode_function called args') parsed rereads rest
    rw [Node.tokens,reread]
    simpa using call
  | @crossSectional op expr group word called parsed labels rereads label_rereads =>
    refine .of_operand (.crossSectional word called parsed labels) rfl fun rest _ => ?_
    have call := parsePrimary_call (crossNode op) (fun args' same => callNode_crossNode called same)
      (forall_mem_cons.mpr ⟨parsed,fun label member => labels label (mem_toList.mp member)⟩)
      (forall_mem_cons.mpr ⟨rereads,fun label member => label_rereads label (mem_toList.mp member)⟩) rest
    cases group with
    | none =>
      have same : (rereadAll [expr]).map (crossNode op) = reread (.crossSectional op expr none) := by
        rw [reread,rereadAll]
        cases reread expr <;> rfl
      rw [Option.toList_none,same] at call
      simpa [Node.tokens,Node.joinedTokens] using call
    | some label =>
      have same : (rereadAll [expr,label]).map (crossNode op) = reread (.crossSectional op expr (some label)) := by
        rw [reread,rereadAll,rereadAll]
        cases reread expr <;> cases reread label <;> rfl
      rw [Option.toList_some,same] at call
      simpa [Node.tokens,Node.joinedTokens] using call

theorem tokenizeFrom_blank {runes : List Char} (blank : ∀ r ∈ runes, u.isSpace r = true) (i : Nat) :
    tokenizeFrom u i 0 runes = .ok [] := by
  induction runes generalizing i with
  | nil => rfl
  | cons r runes ih =>
    have later := ih (fun other member => blank other (mem_cons_of_mem _ member)) (i + 1)
    rw [tokenizeFrom,lexeme,if_pos (blank r mem_cons_self)]
    exact bind_eq_ok.mpr ⟨_,rfl,bind_eq_ok.mpr ⟨_,later,rfl⟩⟩

/-- The text of a tree is read as its `reread`, and not at all where that is none. -/
theorem parse_string_eq_ok (parsed : Parsed u node) {read : Node} :
    parse u node.string = .ok read ↔ reread node = some read := by
  have tokens := tokenize_string parsed
  have given : Gives (parseExpression (node.tokens ++ [])) (reread node) [] :=
    parsed.rereads.expression fun token none_ => absurd none_ (by simp)
  rw [append_nil] at given
  rw [parse_eq_ok]
  constructor
  · rintro ⟨-,other,tokensOk,astOk⟩
    cases tokens.symm.trans tokensOk
    cases expected : reread node with
    | some same =>
      rw [expected] at given
      have done : parseExpression node.tokens = .ok (same,[]) := given
      cases done.symm.trans astOk
      rfl
    | none =>
      rw [expected] at given
      obtain ⟨name,more,stuck⟩ := given read [] astOk
      cases stuck
  · intro expected
    rw [expected] at given
    refine ⟨fun blank => ?_,node.tokens,tokens,given⟩
    obtain ⟨first,later,some_,-⟩ := tokens_head parsed
    have empty := tokenizeFrom_blank (all_eq_true.mp blank) 0
    cases some_.symm.trans (Except.ok.inj (tokens.symm.trans empty))

def printable : Node → Bool
  | .literal value => FixedRange value
  | .unaryOp op _ => op = "NOT"
  | .binaryOp op left right => isLogical op ∨ ¬ isNot left ∧ ¬ isNot right
  | _ => true

theorem rereadAll_eq_iff (each : ∀ arg ∈ args, (reread arg = some arg ↔ arg.everywhere printable = true)) :
    rereadAll args = some args ↔ Node.everywhereIn printable args = true := by
  induction args with
  | nil => simp [rereadAll,Node.everywhereIn]
  | cons arg args ih =>
    have later := ih fun other member => each other (mem_cons_of_mem _ member)
    rw [rereadAll,Node.everywhereIn,Bool.and_eq_true,← each arg mem_cons_self,← later,map₂_eq_some_iff]
    constructor
    · rintro ⟨first,rest,head,tail,same⟩
      cases same
      exact ⟨head,tail⟩
    · rintro ⟨head,tail⟩
      exact ⟨arg,args,head,tail,rfl⟩

theorem map₂_eq_some_self {A B C : Type} {f : A → B → C} (injective : ∀ a b a' b', f a b = f a' b' → a = a' ∧ b = b')
    {x : Option A} {y : Option B} {a : A} {b : B} : map₂ f x y = some (f a b) ↔ x = some a ∧ y = some b := by
  rw [map₂_eq_some_iff]
  constructor
  · rintro ⟨a',b',first,second,same⟩
    obtain ⟨rfl,rfl⟩ := injective a' b' a b same
    exact ⟨first,second⟩
  · rintro ⟨first,second⟩
    exact ⟨a,b,first,second,rfl⟩

/-- A negation on the left is read as another tree. -/
theorem reread_negation_ne {op : String} {left right : Node} {right' : Option Node} (negation : isNot left = true) :
    map₂ (absorb op) (reread left) right' ≠ some (.binaryOp op left right) := by
  cases left with
  | unaryOp sign expr =>
    rw [of_decide_eq_true negation,reread_absorb]
    cases map₂ (Node.binaryOp op) (reread expr) right' <;> simp
  | _ => cases negation

theorem reread_eq_self_iff (parsed : Parsed u node) : reread node = some node ↔ node.everywhere printable = true := by
  induction parsed with
  | @literal value nonneg own =>
    simp only [reread,Node.everywhere,printable,decide_eq_true_eq]
    split <;> simp_all
  | @binaryOp op left right known _ _ left_iff right_iff =>
    have operands : map₂ (Node.binaryOp op.val) (reread left) (reread right) = some (.binaryOp op.val left right) ↔
        left.everywhere printable = true ∧ right.everywhere printable = true := by
      rw [map₂_eq_some_self (by simp),left_iff,right_iff]
    rw [Node.everywhere,Bool.and_eq_true,Bool.and_eq_true,and_assoc,printable,decide_eq_true_eq]
    cases logical : isLogical op.val with
    | true => simp only [reread,logical,if_true,true_or,true_and,operands]
    | false =>
      rw [reread_arithmetic logical]
      cases left_not : isNot left with
      | true => simp [reread_negation_ne left_not]
      | false =>
        cases right_not : isNot right with
        | true => simp
        | false => simp [operands]
  | @not expr parsed expr_iff => simp [reread,Node.everywhere,printable,expr_iff]
  | @function name args word called parsed args_iff =>
    have inner := rereadAll_eq_iff args_iff
    simp [reread,Node.everywhere,printable,inner]
  | @crossSectional op expr group word called parsed labels expr_iff label_iff =>
    cases group with
    | none => simp [reread,Node.everywhere,printable,expr_iff]
    | some label =>
      have both : map₂ (fun expr group => Node.crossSectional op expr (some group)) (reread expr) (reread label) =
          some (.crossSectional op expr (some label)) ↔ reread expr = some expr ∧ reread label = some label :=
        map₂_eq_some_self (by simp)
      rw [reread,both,expr_iff,label_iff label rfl]
      simp [Node.everywhere,printable]
  | _ => simp [reread,Node.everywhere,printable]

/-- A formula's tree is printed so that it is read back exactly when its numbers need no
exponent, no sign is applied to an operand, and no negation stands in arithmetic or a comparison. -/
theorem parse_string_iff (u : Unicode) {formula : String} {node : Node} (read : parse u formula = .ok node) :
    parse u node.string = .ok node ↔ node.everywhere printable = true :=
  (parse_string_eq_ok (parse_parsed read)).trans (reread_eq_self_iff (parse_parsed read))

end Trees

theorem filter_formula_read_back : ∃ node,
    parse asciiUnicode "NOT close > 2.5 AND ts_mean(volume, 20) >= 0.0001" = .ok node ∧
      parse asciiUnicode node.string = .ok node := by
  obtain ⟨node,outcome,checked⟩ : ∃ node,
      parse asciiUnicode "NOT close > 2.5 AND ts_mean(volume, 20) >= 0.0001" = .ok node ∧ node.everywhere printable = true := by
    decide +kernel
  exact ⟨node,outcome,(parse_string_iff asciiUnicode outcome).mpr checked⟩

def negatedOperand : Node := .binaryOp ">" (.unaryOp "NOT" (.identifier "open")) (.identifier "close")

theorem negatedOperand_parsed : parse asciiUnicode "(NOT open) > close" = .ok negatedOperand := by
  decide +kernel

/-- Printed and read again, the negation takes the whole comparison. -/
theorem negatedOperand_reread : parse asciiUnicode "(NOT open) > close" = .ok negatedOperand ∧
    negatedOperand.string = "(NOT(open) > close)" ∧ parse asciiUnicode negatedOperand.string =
      .ok (.unaryOp "NOT" (.binaryOp ">" (.identifier "open") (.identifier "close"))) :=
  ⟨negatedOperand_parsed,by decide +kernel,(parse_string_eq_ok (parse_parsed negatedOperand_parsed)).mpr rfl⟩

end QuantTrading.Expression
