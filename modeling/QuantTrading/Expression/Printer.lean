import QuantTrading.Expression.Parser

/-! The printer of factor trees. Its texts are taken apart again by the tokenizer: every piece
it writes is followed by a character that ends the piece's token.
-/
namespace QuantTrading.Expression
open Library List
open String (ofList toList_append toList_ofList)

mutual

def Node.string : Node → String
  | .literal value => ofList (formatG value)
  | .identifier name => name
  | .binaryOp op left right => "(" ++ left.string ++ " " ++ op ++ " " ++ right.string ++ ")"
  | .unaryOp op expr => op ++ "(" ++ expr.string ++ ")"
  | .function name args => name ++ "(" ++ Node.joined args ++ ")"
  | .crossSectional op expr none => op ++ "(" ++ expr.string ++ ")"
  | .crossSectional op expr (some group) => op ++ "(" ++ expr.string ++ ", " ++ group.string ++ ")"

def Node.joined : List Node → String
  | [] => ""
  | [arg] => arg.string
  | arg :: next :: args => arg.string ++ ", " ++ Node.joined (next :: args)

end

def opToken (op : String) : Token := (binaryTokens.find? fun token => token.val = op).getD .not

def unaryToken (op : String) : Token := if op = "NOT" then .not else .identifier op

def literalTokens (value : ℚ) : List Token :=
  match (formatG value).dropWhile (· ≠ 'e') with
  | _ :: sign :: power =>
    [.number (ofList ((formatG value).takeWhile (· ≠ 'e'))),.identifier "e",
      if sign = '-' then .minus else .plus,.number (ofList power)]
  | _ => [.number (ofList (formatG value))]

mutual

def Node.tokens : Node → List Token
  | .literal value => literalTokens value
  | .identifier name => [.identifier name]
  | .binaryOp op left right => .lParen :: left.tokens ++ opToken op :: right.tokens ++ [.rParen]
  | .unaryOp op expr => unaryToken op :: .lParen :: expr.tokens ++ [.rParen]
  | .function name args => .identifier name :: .lParen :: Node.joinedTokens args ++ [.rParen]
  | .crossSectional op expr none => .identifier op :: .lParen :: expr.tokens ++ [.rParen]
  | .crossSectional op expr (some group) =>
    .identifier op :: .lParen :: expr.tokens ++ .comma :: group.tokens ++ [.rParen]

def Node.joinedTokens : List Node → List Token
  | [] => []
  | [arg] => arg.tokens
  | arg :: next :: args => arg.tokens ++ .comma :: Node.joinedTokens (next :: args)

end

section Pieces
variable {u : Unicode} {stops stops' : Char → Prop} {text text' : List Char} {tokens tokens' : List Token}

def Lexes (u : Unicode) (stops : Char → Prop) (text : List Char) (tokens : List Token) : Prop :=
  ∀ rest more, (∀ c ∈ rest.head?, stops c) → (∀ i, tokenizeFrom u i 0 rest = .ok more) →
    ∀ i, tokenizeFrom u i 0 (text ++ rest) = .ok (tokens ++ more)

theorem Lexes.mono (lexes : Lexes u stops text tokens) (weaker : ∀ c, stops' c → stops c) :
    Lexes u stops' text tokens :=
  fun rest more stopped => lexes rest more fun c first => weaker c (stopped c first)

theorem Lexes.open (first : Lexes u (fun _ => True) text tokens) (second : Lexes u stops' text' tokens') :
    Lexes u stops' (text ++ text') (tokens ++ tokens') := by
  intro rest more stopped continued i
  rw [append_assoc,append_assoc]
  exact first _ _ (fun _ _ => trivial) (second rest more stopped continued) i

variable {c first : Char} {rest : List Char} {value : ℚ}

theorem Lexes.append (first : Lexes u stops text tokens) (second : Lexes u stops' (c :: text') tokens')
    (ends : stops c) : Lexes u stops' (text ++ c :: text') (tokens ++ tokens') := by
  intro rest more stopped continued i
  rw [append_assoc,append_assoc]
  refine first _ _ ?_ (second rest more stopped continued) i
  rintro d follows
  cases follows
  exact ends

theorem tokenizeFrom_skip (i : Nat) (text rest : List Char) :
    tokenizeFrom u i text.length (text ++ rest) = tokenizeFrom u (i + text.length) 0 rest := by
  induction text generalizing i with
  | nil => rfl
  | cons c text ih =>
    rw [length_cons,cons_append,tokenizeFrom,ih,Nat.add_right_comm,Nat.add_assoc]

theorem Lexes.piece {token : Option Token}
    (read : ∀ i rest, (∀ c ∈ rest.head?, stops c) → lexeme u i first (text ++ rest) = .ok (token,text.length)) :
    Lexes u stops (first :: text) token.toList := by
  intro rest more stopped continued i
  rw [cons_append,tokenizeFrom,read i rest stopped]
  refine bind_eq_ok.mpr ⟨_,rfl,bind_eq_ok.mpr ⟨more,?_,rfl⟩⟩
  rw [tokenizeFrom_skip]
  exact continued _

def numeric (u : Unicode) (c : Char) : Prop := u.isDigit c = true ∨ c = '.'

theorem isDigit_bounds (digit : c.isDigit = true) : 48 ≤ c.toNat ∧ c.toNat ≤ 57 := by
  simp only [Char.isDigit,Bool.and_eq_true,decide_eq_true_eq] at digit
  exact ⟨UInt32.le_iff_toNat_le.mp digit.1,UInt32.le_iff_toNat_le.mp digit.2⟩

theorem isAlpha_bounds (alpha : c.isAlpha = true) : 65 ≤ c.toNat ∧ c.toNat ≤ 122 := by
  have ranges : (decide ('A'.val ≤ c.val ∧ c.val ≤ 'Z'.val) ||
      (decide ('a'.val ≤ c.val) && decide (c.val ≤ 'z'.val))) = true := alpha
  simp only [Bool.or_eq_true,Bool.and_eq_true,decide_eq_true_eq] at ranges
  rcases ranges with ⟨low,high⟩ | ⟨low,high⟩
  · exact ⟨UInt32.le_iff_toNat_le.mp low,(UInt32.le_iff_toNat_le.mp high).trans (by decide)⟩
  · exact ⟨le_trans (by decide) (UInt32.le_iff_toNat_le.mp low),UInt32.le_iff_toNat_le.mp high⟩

theorem isSpace_eq_false (low : 48 ≤ c.toNat) (high : c.toNat ≤ 122) : u.isSpace c = false := by
  rw [u.space_ascii c (by omega),decide_eq_false_iff_not]
  rintro (rfl | ⟨-,small⟩)
  · exact absurd low (by decide)
  · have bound : c.toNat ≤ '\r'.toNat := UInt32.le_iff_toNat_le.mp small
    exact absurd (low.trans bound) (by decide)

theorem digit_numeric (digit : c.isDigit = true) : u.isDigit c = true := by
  have bounds := isDigit_bounds digit
  rw [u.digit_ascii c (by omega),digit]

theorem scanNumber_stop (stopped : ∀ c ∈ rest.head?, ¬ numeric u c) (hasDot : Bool) (i : Nat) :
    scanNumber u i hasDot rest = .ok [] := by
  cases rest with
  | nil => rfl
  | cons c =>
    exact if_neg (stopped c rfl)

theorem scanNumber_digits {digits tail : List Char} {hasDot : Bool} (digit : ∀ c ∈ digits, c.isDigit = true)
    (continued : ∀ i, scanNumber u i hasDot rest = .ok tail) (i : Nat) :
    scanNumber u i hasDot (digits ++ rest) = .ok (digits ++ tail) := by
  induction digits generalizing i with
  | nil => exact continued i
  | cons c digits ih =>
    have digit_c := digit c mem_cons_self
    have plain : c ≠ '.' := ne_point_of_isDigit digit_c
    have later := ih (fun d member => digit d (mem_cons_of_mem _ member)) (i + 1)
    rw [cons_append,scanNumber,if_pos (.inl (digit_numeric digit_c))]
    simp only [plain,or_false,Bool.decide_eq_true,later]
    rfl

theorem scanNumber_point {whole fraction : List Char} (digit : ∀ c ∈ whole ++ fraction, c.isDigit = true)
    (stopped : ∀ c ∈ rest.head?, ¬ numeric u c) (i : Nat) :
    scanNumber u i false (whole ++ '.' :: fraction ++ rest) = .ok (whole ++ '.' :: fraction) := by
  have after := scanNumber_digits (u := u) (fun c member => digit c (mem_append_right _ member))
    (scanNumber_stop stopped true)
  rw [append_assoc]
  refine scanNumber_digits (fun c member => digit c (mem_append_left _ member)) (fun i => ?_) i
  rw [cons_append,scanNumber,if_pos (.inr rfl)]
  simp only [or_true,decide_true,after,append_nil]
  rfl

theorem lexeme_digit (digit : first.isDigit = true) {runes val : List Char} {i : Nat}
    (scanned : scanNumber u (i + 1) false runes = .ok val) :
    lexeme u i first runes = .ok (some (.number (ofList (first :: val))),val.length) := by
  have bounds := isDigit_bounds digit
  have graphic : u.isSpace first = false := isSpace_eq_false bounds.1 (by omega)
  have plain : decide (first = '.') = false := decide_eq_false (ne_point_of_isDigit digit)
  rw [lexeme,graphic,if_neg Bool.false_ne_true,if_pos (.inl (digit_numeric digit)),plain,scanned]
  rfl

theorem lexes_number (plain : PlainText text) :
    Lexes u (fun c => ¬ numeric u c) text [.number (ofList text)] := by
  cases plain with
  | digits some_ digit =>
    cases text with
    | nil => exact absurd rfl some_
    | cons first tail =>
      have digit_tail : ∀ c ∈ tail, c.isDigit = true := fun c member => digit c (mem_cons_of_mem _ member)
      refine Lexes.piece fun i rest stopped => lexeme_digit (digit first mem_cons_self) ?_
      have scanned := scanNumber_digits digit_tail (scanNumber_stop stopped false) (i + 1)
      rwa [append_nil] at scanned
  | @point whole fraction some_ digit =>
    cases whole with
    | nil => exact absurd rfl some_
    | cons first =>
      refine Lexes.piece fun i rest stopped => lexeme_digit (digit first mem_cons_self) ?_
      exact scanNumber_point (fun c member => digit c (mem_cons_of_mem _ member)) stopped (i + 1)

theorem lexes_word (graphic : u.isSpace first = false) (unnumbered : ¬ (u.isDigit first = true ∨ first = '.'))
    (letter : u.isLetter first = true ∨ first = '_') (inner : ∀ c ∈ rest, wordRune u c = true) :
    Lexes u (fun c => wordRune u c = false) (first :: rest) [wordToken u (ofList (first :: rest))] := by
  have taken (more : List Char) (stopped : ∀ c ∈ more.head?, wordRune u c = false) :
      (rest ++ more).takeWhile (wordRune u) = rest := by
    rw [takeWhile_append_of_pos inner]
    cases more with
    | nil => exact append_nil _
    | cons c => rw [takeWhile_cons_of_neg (by simp [stopped c rfl]),append_nil]
  have read (i : Nat) (more : List Char) (stopped : ∀ c ∈ more.head?, wordRune u c = false) :
      lexeme u i first (rest ++ more) = .ok (some (wordToken u (ofList (first :: rest))),rest.length) := by
    rw [lexeme,graphic,if_neg Bool.false_ne_true,if_neg unnumbered,if_pos letter]
    simp only [taken more stopped]
  exact Lexes.piece read

variable {name : String} {token op : Token} {node : Node}

theorem Word.lexes (word : Word u name) :
    Lexes u (fun c => wordRune u c = false) name.toList [.identifier name] := by
  obtain ⟨graphic,unnumbered,letter,inner,free⟩ := word
  rw [toList_ofList,← free]
  exact lexes_word graphic unnumbered letter inner

theorem alpha_letters (alpha : ∀ c ∈ first :: rest, c.isAlpha = true) :
    u.isSpace first = false ∧ ¬ (u.isDigit first = true ∨ first = '.') ∧ (u.isLetter first = true ∨ first = '_') ∧
      (∀ c ∈ rest, wordRune u c = true) ∧
      wordToken u (ofList (first :: rest)) = wordToken asciiUnicode (ofList (first :: rest)) := by
  have ascii (c : Char) (member : c ∈ first :: rest) : c.toNat < 128 := by
    have bounds := isAlpha_bounds (alpha c member)
    omega
  have letter (c : Char) (member : c ∈ first :: rest) : u.isLetter c = true := by
    rw [u.letter_ascii c (ascii c member),alpha c member]
  have bounds := isAlpha_bounds (alpha first mem_cons_self)
  refine ⟨isSpace_eq_false (by omega) bounds.2,?_,.inl (letter first mem_cons_self),?_,?_⟩
  · rintro (digit | rfl)
    · rw [u.digit_ascii first (ascii first mem_cons_self)] at digit
      have digits := isDigit_bounds digit
      omega
    · exact absurd bounds.1 (by decide)
  · intro c member
    simp [wordRune,letter c (mem_cons_of_mem _ member)]
  · have upper : (first :: rest).map u.toUpper = (first :: rest).map asciiUnicode.toUpper :=
      map_congr_left fun c member => u.upper_ascii c (ascii c member)
    rw [wordToken,wordToken,toList_ofList,upper]

theorem lexes_alpha (name : String) (chars : name.toList = first :: rest) (alpha : name.toList.all Char.isAlpha = true) :
    Lexes u (fun c => wordRune u c = false) name.toList [wordToken asciiUnicode name] := by
  rw [all_eq_true,chars] at alpha
  obtain ⟨graphic,unnumbered,letter,inner,same⟩ := alpha_letters (u := u) alpha
  have lexes := lexes_word graphic unnumbered letter inner
  rwa [same,← chars,String.ofList_toList] at lexes

def Symbol (c : Char) : Prop :=
  c.toNat < 128 ∧ c.isAlpha = false ∧ c.isDigit = false ∧ c ≠ '_' ∧ c ≠ '.' ∧ ¬ (c = ' ' ∨ '\t' ≤ c ∧ c ≤ '\r')
deriving Decidable

theorem Symbol.lexes (symbol : Symbol c)
    (read : ∀ i rest, (∀ d ∈ rest.head?, stops d) → punctuation i c (text ++ rest) = .ok (some token,text.length)) :
    Lexes u stops (c :: text) [token] := by
  obtain ⟨ascii,alpha,digit,line,point,graphic⟩ := symbol
  have lexed (i : Nat) (rest : List Char) (stopped : ∀ d ∈ rest.head?, stops d) :
      lexeme u i c (text ++ rest) = .ok (some token,text.length) := by
    rw [lexeme,u.space_ascii c ascii,u.digit_ascii c ascii,u.letter_ascii c ascii,decide_eq_false graphic,alpha,digit,
      if_neg Bool.false_ne_true,if_neg (by simp [point]),if_neg (by simp [line])]
    exact read i rest stopped
  exact Lexes.piece lexed

theorem lexes_blank : Lexes u (fun _ => True) [' '] [] := by
  have blank (i : Nat) (rest : List Char) (_ : ∀ c ∈ rest.head?, True) : lexeme u i ' ' ([] ++ rest) = .ok (none,0) := by
    rw [lexeme,u.space_ascii ' ' (by decide)]
    rfl
  exact Lexes.piece blank

theorem lexes_lParen : Lexes u (fun _ => True) ['('] [.lParen] := Symbol.lexes (by decide) fun _ _ _ => rfl

theorem lexes_rParen : Lexes u (fun _ => True) [')'] [.rParen] := Symbol.lexes (by decide) fun _ _ _ => rfl

theorem lexes_comma : Lexes u (fun _ => True) [','] [.comma] := Symbol.lexes (by decide) fun _ _ _ => rfl

theorem wordRune_ascii (ascii : c.toNat < 128) : wordRune u c = wordRune asciiUnicode c := by
  rw [wordRune,u.letter_ascii c ascii,u.digit_ascii c ascii]
  rfl

theorem lexes_op (known : op ∈ binaryTokens) : Lexes u (fun c => c = ' ') op.val.toList [op] := by
  have word : ∀ c, c = ' ' → wordRune u c = false := by
    rintro c rfl
    exact wordRune_ascii (by decide)
  have single (rest : List Char) (stopped : ∀ c ∈ rest.head?, c = ' ') : ¬ rest.head? = some '=' := fun equals =>
    absurd (stopped '=' equals) (by decide)
  simp only [binaryTokens,mem_cons,not_mem_nil,or_false] at known
  rcases known with rfl | rfl | rfl | rfl | rfl | rfl | rfl | rfl | rfl | rfl | rfl | rfl
  any_goals exact Symbol.lexes (by decide) fun _ _ _ => rfl
  · exact Symbol.lexes (by decide) fun _ rest stopped => if_neg (single rest stopped)
  · exact Symbol.lexes (by decide) fun _ rest stopped => if_neg (single rest stopped)
  · exact (lexes_alpha "AND" rfl (by decide)).mono word
  · exact (lexes_alpha "OR" rfl (by decide)).mono word

def Delimiter (c : Char) : Prop := c = ' ' ∨ c = '(' ∨ c = ')' ∨ c = ','

theorem Delimiter.not_word (delimiter : Delimiter c) : wordRune u c = false := by
  rcases delimiter with rfl | rfl | rfl | rfl
  all_goals exact wordRune_ascii (by decide)

theorem Delimiter.not_numeric (delimiter : Delimiter c) : ¬ numeric u c := by
  rcases delimiter with rfl | rfl | rfl | rfl
  all_goals
    rw [numeric,u.digit_ascii _ (by decide)]
    decide

theorem plain_ne_e (plain : PlainText text) : ∀ c ∈ text, decide (c ≠ 'e') = true := by
  have digit_ne {c : Char} (digit : c.isDigit = true) : decide (c ≠ 'e') = true := by
    refine decide_eq_true ?_
    rintro rfl
    exact absurd digit (by decide)
  intro c member
  cases plain with
  | digits _ digit => exact digit_ne (digit c member)
  | point _ digit =>
    rcases mem_append.mp member with whole | rest
    · exact digit_ne (digit c (mem_append_left _ whole))
    · rcases mem_cons.mp rest with rfl | fraction
      · decide
      · exact digit_ne (digit c (mem_append_right _ fraction))

section
variable (nonneg : 0 ≤ value) (own : Binary64.ofRat value = some value)
include nonneg own

theorem literalTokens_fixed (fixed : FixedRange value) :
    literalTokens value = [.number (ofList (formatG value))] := by
  have plain := (formatG_fixed nonneg own fixed).1
  rw [literalTokens,dropWhile_eq_nil_iff.mpr (plain_ne_e plain)]

theorem literalTokens_far (far : ¬ FixedRange value) :
    ∃ significand sign power, formatG value = significand ++ 'e' :: sign :: power ∧
      PlainText significand ∧ (sign = '+' ∨ sign = '-') ∧ PlainText power ∧ literalTokens value =
        [.number (ofList significand),.identifier "e",if sign = '-' then .minus else .plus,
          .number (ofList power)] := by
  obtain ⟨significand,sign,power,text,plain,signs,some_,digit⟩ := formatG_far nonneg own far
  refine ⟨significand,sign,power,text,plain,signs,.digits some_ digit,?_⟩
  rw [literalTokens,text,dropWhile_append_of_pos (plain_ne_e plain),takeWhile_append_of_pos (plain_ne_e plain)]
  simp

theorem lexes_literal : Lexes u Delimiter (formatG value) (literalTokens value) := by
  by_cases fixed : FixedRange value
  · rw [literalTokens_fixed nonneg own fixed]
    exact (lexes_number (formatG_fixed nonneg own fixed).1).mono fun _ => Delimiter.not_numeric
  · obtain ⟨significand,sign,power,text,plain,signs,digits,tokens⟩ := literalTokens_far nonneg own fixed
    rw [text,tokens]
    have power_lexes : Lexes u Delimiter power [.number (ofList power)] :=
      (lexes_number digits).mono fun _ => Delimiter.not_numeric
    have word : Lexes u (fun c => wordRune u c = false) ['e'] [.identifier "e"] := lexes_alpha "e" rfl (by decide)
    have signed : Lexes u (fun _ => True) [sign] [if sign = '-' then .minus else .plus] := by
      rcases signs with rfl | rfl <;> exact Symbol.lexes (by decide) fun _ _ _ => rfl
    have sign_ends : wordRune u sign = false := by
      rcases signs with rfl | rfl <;> exact wordRune_ascii (by decide)
    have e_ends : ¬ numeric u 'e' := by
      rw [numeric,u.digit_ascii _ (by decide)]
      decide
    exact (lexes_number plain).append (word.append (signed.open power_lexes) sign_ends) e_ends

end

theorem lexes_call (name_lexes : Lexes u (fun c => wordRune u c = false) name.toList [token]) {args : String}
    (inner : Lexes u Delimiter args.toList tokens) :
    Lexes u Delimiter (name ++ "(" ++ args ++ ")").toList (token :: .lParen :: tokens ++ [.rParen]) := by
  rw [toList_append,toList_append,toList_append]
  have opened := name_lexes.append lexes_lParen (Delimiter.not_word (.inr (.inl rfl)))
  exact ((opened.open inner).append lexes_rParen (.inr (.inr (.inl rfl)))).mono fun _ _ => trivial

theorem lexes_separated {text text' : String} (first : Lexes u Delimiter text.toList tokens)
    (second : Lexes u Delimiter text'.toList tokens') :
    Lexes u Delimiter (text ++ ", " ++ text').toList (tokens ++ .comma :: tokens') := by
  have separator : Lexes u (fun _ => True) [',',' '] [.comma] := lexes_comma.open lexes_blank
  have both := (first.append separator (.inr (.inr (.inr rfl)))).open second
  rw [append_assoc tokens] at both
  rwa [toList_append,toList_append]

theorem lexes_joined {args : List Node} (lexes : ∀ arg ∈ args, Lexes u Delimiter arg.string.toList arg.tokens) :
    Lexes u Delimiter (Node.joined args).toList (Node.joinedTokens args) := by
  induction args with
  | nil => exact fun rest more _ continued => continued
  | cons arg args ih =>
    have first := lexes arg mem_cons_self
    cases args with
    | nil => exact first
    | cons =>
      have later := ih fun other member => lexes other (mem_cons_of_mem _ member)
      exact lexes_separated first later

theorem opToken_val (known : op ∈ binaryTokens) : opToken op.val = op := by
  revert op
  decide

/-- The tokenizer takes a printed tree apart into its tokens. -/
theorem Parsed.lexes (parsed : Parsed u node) : Lexes u Delimiter node.string.toList node.tokens := by
  induction parsed with
  | literal nonneg own =>
    rw [Node.string,Node.tokens,toList_ofList]
    exact lexes_literal nonneg own
  | identifier word => exact word.lexes.mono fun _ => Delimiter.not_word
  | @binaryOp op left right known _ _ left_lexes right_lexes =>
    have opened := lexes_lParen.open (left_lexes.append lexes_blank (.inl rfl))
    have operator := (opened.open (lexes_op known)).append lexes_blank rfl
    have closed := (operator.open right_lexes).append lexes_rParen (.inr (.inr (.inl rfl)))
    have spaced : Lexes u Delimiter _ _ := closed.mono fun _ _ => trivial
    rw [Node.string,Node.tokens,opToken_val known]
    simpa [toList_append] using spaced
  | neg _ expr_lexes =>
    exact lexes_call (lexes_alpha "neg" rfl (by decide)) expr_lexes
  | not _ expr_lexes =>
    exact lexes_call (lexes_alpha "NOT" rfl (by decide)) expr_lexes
  | function word _ _ args_lexes =>
    exact lexes_call word.lexes (lexes_joined args_lexes)
  | @crossSectional op expr group word _ _ _ expr_lexes group_lexes =>
    cases group with
    | none => exact lexes_call word.lexes expr_lexes
    | some label =>
      have call := lexes_call word.lexes (lexes_separated expr_lexes (group_lexes label rfl))
      simpa [Node.string,Node.tokens,String.append_assoc] using call

theorem tokenize_string (parsed : Parsed u node) : tokenize u node.string = .ok node.tokens := by
  have whole := parsed.lexes [] [] (fun _ none_ => nomatch none_) (fun _ => rfl) 0
  rwa [append_nil,append_nil] at whole

end Pieces

end QuantTrading.Expression
