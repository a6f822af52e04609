import QuantTrading.Expression.Gate
import QuantTrading.Expression.Parser
import QuantTrading.Market

/-! The book of factor registrations. A version of a factor is registered once, under the hash of
its definition, and may be rolled back: pinned references still find it, new ones no longer do.
The book's map points into the list of registrations, so a rollback is seen through both.
-/
namespace QuantTrading.Factor
open Library List

abbrev FactorType := String

inductive FactorKernel where
  | leaf
  | formula
  | code
  | pending
  | unknown (text : String)
deriving DecidableEq

inductive FactorCaliber where
  | zScore
  | rank
  | raw
  | unknown (text : String)
deriving DecidableEq

inductive RegistrationStatus where
  | active
  | rolledBack
  | unknown (text : String)
deriving DecidableEq

def FactorKernel.text : FactorKernel → String
  | .leaf => "leaf"
  | .formula => "formula"
  | .code => "code"
  | .pending => "pending"
  | .unknown text => text

def FactorCaliber.text : FactorCaliber → String
  | .zScore => "z-score"
  | .rank => "rank"
  | .raw => "raw"
  | .unknown text => text

def FactorKernel.valid : FactorKernel → Bool
  | .unknown _ => false
  | _ => true

def FactorCaliber.valid : FactorCaliber → Bool
  | .unknown _ => false
  | _ => true

def RegistrationStatus.valid : RegistrationStatus → Bool
  | .unknown _ => false
  | _ => true

structure FactorDefinition where
  name : FactorType
  kernel : FactorKernel
  (formula validity codeRef : String)
  caliber : FactorCaliber
  inputFields : List String
  (effectiveFrom lookahead : String)
  lookback : Int
deriving DecidableEq

inductive DefinitionError where
  | unknownName
  | unknownKernel
  | unknownCaliber
  | lookaheadMissing
  | effectiveFrom
  | formulaMissing
  | codeRefPresent
  | codeRefMissing
  | formulaPresent
  | pendingKernelBody
  | pendingInputs
  | noInputs
  | emptyInput
  | duplicateInput
deriving DecidableEq

def frozenNames : List FactorType :=
  ["momentum","value","quality","size","volatility","growth","gross_margin_trend","contract_liability_ratio",
    "ocf_to_net_profit","roe_dupont_leverage","inventory_turnover_delta","market_activity"]

def daysIn (month year : ℕ) : ℕ :=
  if month = 2 then if year % 4 = 0 ∧ (year % 100 ≠ 0 ∨ year % 400 = 0) then 29 else 28
  else if month ∈ [4,6,9,11] then 30 else 31

/-- `time.Parse("2006-01-02", text)` succeeds. -/
def isDate (text : String) : Bool :=
  let number (digits : List Char) : ℕ := Nat.ofDigitChars 10 digits 0
  match text.toList with
  | [y₁,y₂,y₃,y₄,'-',m₁,m₂,'-',d₁,d₂] =>
    let year := number [y₁,y₂,y₃,y₄]
    let month := number [m₁,m₂]
    let day := number [d₁,d₂]
    [y₁,y₂,y₃,y₄,m₁,m₂,d₁,d₂].all Char.isDigit ∧ 1 ≤ month ∧ month ≤ 12 ∧ 1 ≤ day ∧ day ≤ daysIn month year
  | _ => false

namespace FactorDefinition

variable (d : FactorDefinition)

def validateKernel : Except DefinitionError Unit :=
  match d.kernel with
  | .code =>
    if d.codeRef = "" then .error .codeRefMissing else if d.formula ≠ "" then .error .formulaPresent else .ok ()
  | .pending =>
    if d.formula ≠ "" ∨ d.codeRef ≠ "" then .error .pendingKernelBody
    else if d.inputFields ≠ [] then .error .pendingInputs else .ok ()
  | _ => if d.formula = "" then .error .formulaMissing else if d.codeRef ≠ "" then .error .codeRefPresent else .ok ()

def validateInputs : List String → List String → Except DefinitionError Unit
  | _,[] => .ok ()
  | seen,field :: fields =>
    if field = "" then .error .emptyInput
    else if field ∈ seen then .error .duplicateInput
    else validateInputs (field :: seen) fields

def validate : Except DefinitionError Unit := do
  if d.name ∉ frozenNames then throw .unknownName
  if ¬ d.kernel.valid then throw .unknownKernel
  if ¬ d.caliber.valid then throw .unknownCaliber
  if d.lookahead = "" then throw .lookaheadMissing
  if ¬ isDate d.effectiveFrom then throw .effectiveFrom
  d.validateKernel
  if d.inputFields = [] ∧ d.kernel ≠ .pending then throw .noInputs
  validateInputs [] d.inputFields

def canonical : FactorDefinition :=
  { d with inputFields := Expression.sortStrings d.inputFields }

end FactorDefinition

/-- The hash of canonical definitions, and the tables the formula parser reads characters by. -/
structure Governance where
  sha256 : FactorDefinition → String
  unicode : Expression.Unicode

variable (g : Governance) (d : FactorDefinition)

def Governance.versionHash : String := g.sha256 d.canonical

inductive RegistryError where
  | duplicateDefinition
  | definition (cause : DefinitionError)
  | formula (cause : String)
  | validity (cause : String)
  | undeclaredField
  | unusedField
  | unknownField (field : String)
  | undeclaredValidityField
  | unknownCodeRef
deriving DecidableEq

def factorCodeKernels : List String :=
  ["ComputeGrossMarginTrendFactor","ComputeContractLiabilityRatioFactor","ComputeOCFToNetProfitFactor",
    "ComputeROEDuPontLeverageFactor","ComputeInventoryTurnoverDeltaFactor"]

def parseChecked (text : String) : Except String Expression.Node := do
  let node ← Expression.parse g.unicode text
  Expression.validateNode "root" node
  return node

/-- Which of several undeclared or unused fields an error names depends on the order of a Go map. -/
def validateFormulaDef : Except RegistryError Unit := do
  let node ← (parseChecked g d.formula).mapError .formula
  let used := Expression.extractInputs node
  let declared := d.inputFields.toFinset
  if ¬ used ⊆ declared then throw .undeclaredField
  if ¬ declared ⊆ used then throw .unusedField
  match d.inputFields.find? (fun field => ¬ Expression.isDataField field) with
  | some field => throw (.unknownField field)
  | none =>
    if d.validity = "" then return
    let node ← (parseChecked g d.validity).mapError .validity
    if ¬ Expression.extractInputs node ⊆ declared then throw .undeclaredValidityField

def newRegistry (defs : List FactorDefinition) : Except RegistryError (List FactorDefinition) :=
  defs.foldlM (fun registered d => do
    if registered.any (·.name = d.name) then throw .duplicateDefinition
    d.validate.mapError .definition
    match d.kernel with
    | .code => if d.codeRef ∉ factorCodeKernels then throw .unknownCodeRef
    | .pending => pure ()
    | _ => validateFormulaDef g d
    return registered ++ [d]) []

structure FactorRegistration where
  definition : FactorDefinition
  (versionHash registrar : String)
  status : RegistrationStatus
  registeredAt : Time
  rolledBackAt : Option Time
  (rolledBackBy rollbackReason : String)
deriving DecidableEq

inductive RegistrationError where
  | definition (cause : DefinitionError)
  | pendingKernel
  | hashMissing
  | hashMismatch (recorded derived : String)
  | registrarMissing
  | unknownStatus
deriving DecidableEq

def isBlank (text : String) : Bool := text.toList.all Board.isSpace

def FactorRegistration.validate (g : Governance) (r : FactorRegistration) : Except RegistrationError Unit :=
  match r.definition.validate with
  | .error e => .error (.definition e)
  | .ok () =>
    if r.definition.kernel = .pending then .error .pendingKernel
    else if r.versionHash = "" then .error .hashMissing
    else if r.versionHash ≠ g.versionHash r.definition then
      .error (.hashMismatch r.versionHash (g.versionHash r.definition))
    else if isBlank r.registrar then .error .registrarMissing
    else if ¬ r.status.valid then .error .unknownStatus
    else .ok ()

inductive RegistrationAction where
  | register
  | rollback
deriving DecidableEq

structure RegistrationAuditEntry where
  name : FactorType
  versionHash : String
  action : RegistrationAction
  (actor reason detail : String)
  at_ : Time
deriving DecidableEq

/-- The map holds where in the list a registration stands: both share one record. -/
structure RegistrationBook where
  byNameHash : Book FactorType (Book String ℕ)
  ordered : List FactorRegistration
  audit : List RegistrationAuditEntry

inductive RegisterError where
  | invalid (cause : RegistrationError)
  | gates (cause : RegistryError)
  | duplicate (name : FactorType) (hash : String)
deriving DecidableEq

inductive RollbackError where
  | notRegistered
  | alreadyRolledBack
  | actorMissing
deriving DecidableEq

namespace RegistrationBook

def newRegistrationBook : RegistrationBook := ⟨∅,[],[]⟩

variable (g : Governance) (b : RegistrationBook) (reg : FactorRegistration)

def lookup (name : FactorType) (hash : String) : Option ℕ :=
  (b.byNameHash[name]?).bind (·[hash]?)

def add : Except RegisterError RegistrationBook :=
  let name := reg.definition.name
  match b.lookup name reg.versionHash with
  | some _ => .error (.duplicate name reg.versionHash)
  | none =>
    let byHash := ((b.byNameHash[name]?).getD ∅).insert reg.versionHash b.ordered.length
    .ok { b with byNameHash := b.byNameHash.insert name byHash, ordered := b.ordered ++ [reg] }

def newRegistrationBookFrom (regs : List FactorRegistration) : Except RegisterError RegistrationBook :=
  regs.foldlM (fun b reg => do
    (reg.validate g).mapError .invalid
    b.add reg) newRegistrationBook

def register (g : Governance) (b : RegistrationBook) (d : FactorDefinition) (registrar reason : String) (now : Time) :
    Except RegisterError FactorRegistration × RegistrationBook :=
  let reg : FactorRegistration := ⟨d,g.versionHash d,registrar,.active,now,none,"",""⟩
  match reg.validate g with
  | .error e => (.error (.invalid e),b)
  | .ok () =>
    match newRegistry g [d] with
    | .error e => (.error (.gates e),b)
    | .ok _ =>
      match b.add reg with
      | .error e => (.error e,b)
      | .ok added =>
        let detail := "kernel=" ++ d.kernel.text ++ " caliber=" ++ d.caliber.text ++ " effective_from=" ++ d.effectiveFrom
        (.ok reg,{ added with audit := b.audit ++ [⟨d.name,reg.versionHash,.register,registrar,reason,detail,now⟩] })

def rollback (b : RegistrationBook) (name : FactorType) (hash actor reason : String) (now : Time) :
    Except RollbackError Unit × RegistrationBook :=
  match (b.lookup name hash).bind fun i => (b.ordered[i]?).map (i,·) with
  | none => (.error .notRegistered,b)
  | some (i,reg) =>
    if reg.status = .rolledBack then (.error .alreadyRolledBack,b)
    else if isBlank actor then (.error .actorMissing,b)
    else
      let rolled :=
        { reg with status := .rolledBack, rolledBackAt := some now, rolledBackBy := actor, rollbackReason := reason }
      let detail := "new references will no longer resolve this version; pinned (historical) references still hit"
      (.ok (),{ b with
        ordered := b.ordered.set i rolled
        audit := b.audit ++ [⟨name,hash,.rollback,actor,reason,detail,now⟩] })

def newer (best : Option FactorRegistration) (reg : FactorRegistration) : Option FactorRegistration :=
  match best with
  | none => some reg
  | some old => if reg.registeredAt < old.registeredAt then best else some reg

def resolveEffective (name : FactorType) : Option (FactorDefinition × String) :=
  let best := b.ordered.foldl (fun best reg =>
    if reg.definition.name = name ∧ reg.status = .active then newer best reg else best) none
  best.map fun reg => (reg.definition,reg.versionHash)

def resolvePinned (name : FactorType) (hash : String) : Option FactorDefinition :=
  ((b.lookup name hash).bind (b.ordered[·]?)).map (·.definition)

def registrations : List FactorRegistration := b.ordered

inductive Op where
  | register (definition : FactorDefinition) (registrar reason : String) (now : Time)
  | rollback (name : FactorType) (hash actor reason : String) (now : Time)

inductive Reply where
  | registered (result : Except RegisterError FactorRegistration)
  | rolledBack (result : Except RollbackError Unit)
deriving DecidableEq

def Reply.Failed : Reply → Prop
  | .registered (.error _) => True
  | .rolledBack (.error _) => True
  | _ => False

def call : Op → Reply × RegistrationBook
  | .register d registrar reason now =>
    (.registered (b.register g d registrar reason now).1,(b.register g d registrar reason now).2)
  | .rollback name hash actor reason now =>
    (.rolledBack (b.rollback name hash actor reason now).1,(b.rollback name hash actor reason now).2)

def step (op : Op) : RegistrationBook := (b.call g op).2

def Indexed : Prop :=
  ∀ name hash i, b.lookup name hash = some i ↔
    ∃ reg, b.ordered[i]? = some reg ∧ reg.definition.name = name ∧ reg.versionHash = hash

section Books
variable {g : Governance} {b after : RegistrationBook} {reg : FactorRegistration} {op : Op} {name : FactorType}
  {hash : String}

theorem add_ok (added : b.add reg = .ok after) :
    b.lookup reg.definition.name reg.versionHash = none ∧ after.ordered = b.ordered ++ [reg] ∧
      ∀ name hash, after.lookup name hash =
        if reg.definition.name = name ∧ reg.versionHash = hash then some b.ordered.length else b.lookup name hash := by
  unfold add at added
  dsimp only at added
  split at added
  · cases added
  rename_i free
  cases added
  refine ⟨free,rfl,fun name hash => ?_⟩
  simp only [lookup,Book.get_insert]
  by_cases same : reg.definition.name = name
  · subst same
    simp only [true_and,if_true,Option.bind_some,Book.get_insert]
    split
    · rfl
    cases b.byNameHash[reg.definition.name]? with
    | none => simp
    | some => rfl
  · simp [same]

theorem getElem?_concat_eq_some {A : Type} {xs : List A} {x y : A} {i : ℕ} :
    (xs ++ [x])[i]? = some y ↔ xs[i]? = some y ∨ i = xs.length ∧ x = y := by
  rcases lt_trichotomy i xs.length with lt | rfl | gt
  · simp [getElem?_append_left lt,lt.ne]
  · simp
  · simp [getElem?_append_right gt.le,gt.le,gt.ne',Nat.sub_ne_zero_of_lt gt]

theorem Indexed.add (indexed : Indexed b) (added : b.add reg = .ok after) : Indexed after := by
  obtain ⟨free,ordered,lookups⟩ := add_ok added
  intro name hash i
  simp only [lookups,ordered,getElem?_concat_eq_some]
  by_cases own : reg.definition.name = name ∧ reg.versionHash = hash
  · obtain ⟨rfl,rfl⟩ := own
    rw [if_pos ⟨rfl,rfl⟩,Option.some.injEq]
    constructor
    · intro last
      exact ⟨reg,.inr ⟨last.symm,rfl⟩,rfl,rfl⟩
    · rintro ⟨other,old | ⟨last,-⟩,names,hashes⟩
      · cases free.symm.trans ((indexed _ _ i).mpr ⟨other,old,names,hashes⟩)
      · exact last.symm
  · rw [if_neg own,indexed name hash i]
    constructor
    · rintro ⟨other,old,keys⟩
      exact ⟨other,.inl old,keys⟩
    · rintro ⟨other,old | ⟨-,rfl⟩,keys⟩
      · exact ⟨other,old,keys⟩
      · exact absurd keys own

/-- A rollback rewrites one record and keeps its definition and its hash. -/
structure Rewrites (b : RegistrationBook) (i : ℕ) (reg rolled : FactorRegistration) (after : RegistrationBook) : Prop where
  found : b.ordered[i]? = some reg
  byNameHash : after.byNameHash = b.byNameHash
  ordered : after.ordered = b.ordered.set i rolled
  definition : rolled.definition = reg.definition
  hash : rolled.versionHash = reg.versionHash

theorem Rewrites.get {i j : ℕ} {rolled : FactorRegistration} (rewrites : Rewrites b i reg rolled after) :
    after.ordered[j]? = if i = j then some rolled else b.ordered[j]? := by
  have bound := (List.getElem?_eq_some_iff.mp rewrites.found).1
  rw [rewrites.ordered,List.getElem?_set,if_pos bound]

theorem Indexed.rewrites {i : ℕ} {rolled : FactorRegistration} (indexed : Indexed b)
    (rewrites : Rewrites b i reg rolled after) : Indexed after := by
  intro name hash j
  have same : after.lookup name hash = b.lookup name hash := by rw [lookup,rewrites.byNameHash,lookup]
  rw [same,indexed name hash j,rewrites.get]
  split
  next own =>
    subst own
    simp only [rewrites.found,Option.some.injEq,exists_eq_left',rewrites.definition,rewrites.hash]
  · rfl

def rolled (reg : FactorRegistration) (actor reason : String) (now : Time) : FactorRegistration :=
  { reg with status := .rolledBack, rolledBackAt := some now, rolledBackBy := actor, rollbackReason := reason }

inductive Called (g : Governance) (b : RegistrationBook) : Op → Reply → RegistrationBook → Prop
  | failed (op reply) (failed : reply.Failed) : Called g b op reply b
  | registered (d registrar reason now reg after audit) (active : reg.status = .active)
      (valid : reg.validate g = .ok ()) (added : b.add reg = .ok after) :
      Called g b (.register d registrar reason now) (.registered (.ok reg)) { after with audit := audit }
  | rolledBack (name hash actor reason now i reg after) (found : b.lookup name hash = some i)
      (rewrites : Rewrites b i reg (rolled reg actor reason now) after) :
      Called g b (.rollback name hash actor reason now) (.rolledBack (.ok ())) after

theorem call_called (g : Governance) (b : RegistrationBook) (op : Op) : Called g b op (b.call g op).1 (b.call g op).2 := by
  cases op with
  | register d registrar reason now =>
    simp only [call,register]
    split
    · exact .failed _ _ trivial
    rename_i valid
    iterate 2 (split; · exact .failed _ _ trivial)
    rename_i added
    exact .registered _ _ _ _ _ _ _ rfl valid added
  | rollback name hash actor reason now =>
    simp only [call,rollback]
    split
    · exact .failed _ _ trivial
    rename_i i reg held
    iterate 2 (split; · exact .failed _ _ trivial)
    obtain ⟨j,found,there⟩ := bind_eq_some_iff.mp held
    obtain ⟨other,listed,same⟩ := map_eq_some_iff.mp there
    cases same
    exact .rolledBack _ _ _ _ _ i reg _ found ⟨listed,rfl,rfl,rfl,rfl⟩

theorem validate_rolled {actor reason : String} {now : Time} (valid : reg.validate g = .ok ()) :
    (rolled reg actor reason now).validate g = .ok () := by
  unfold FactorRegistration.validate at valid ⊢
  split at valid
  · cases valid
  rename_i defined
  split_ifs at valid with pending missing mismatch blank
  simp only [rolled,defined,pending,missing,mismatch,blank,RegistrationStatus.valid,if_false,not_true_eq_false]
  rfl

end Books

structure History where
  book : RegistrationBook
  log : List (Op × Reply)

def History.step (g : Governance) (h : History) (op : Op) : History :=
  ⟨h.book.step g op,h.log ++ [(op,(h.book.call g op).1)]⟩

def history (ops : List Op) : History := run (History.step g) ⟨newRegistrationBook,[]⟩ ops

def registeredBy : Op × Reply → Option FactorRegistration
  | (_,.registered (.ok reg)) => some reg
  | _ => none

def versions (log : List (Op × Reply)) : List FactorRegistration := log.filterMap registeredBy

def rollsBack (name : FactorType) (hash : String) : Op × Reply → Bool
  | (.rollback name' hash' _ _ _,.rolledBack (.ok ())) => name' = name ∧ hash' = hash
  | _ => false

def withdrawn (log : List (Op × Reply)) (name : FactorType) (hash : String) : Bool := log.any (rollsBack name hash)

/-- The versions of a factor that were registered and not rolled back, in the order of their registration. -/
def standing (log : List (Op × Reply)) (name : FactorType) : List FactorRegistration :=
  (versions log).filter fun reg => reg.definition.name = name ∧ ¬ withdrawn log name reg.versionHash

/-- The version with the last time of registration, and of several the last one registered. -/
def Latest (regs : List FactorRegistration) (reg : FactorRegistration) : Prop :=
  ∃ i, regs[i]? = some reg ∧ ∀ (j : ℕ) (other : FactorRegistration), regs[j]? = some other →
    other.registeredAt ≤ reg.registeredAt ∧ (reg.registeredAt ≤ other.registeredAt → j ≤ i)

theorem newest_latest (regs : List FactorRegistration) :
    regs = [] ∧ regs.foldl newer none = none ∨ ∃ reg, Latest regs reg ∧ regs.foldl newer none = some reg := by
  induction regs using reverseRecOn with
  | nil => exact .inl ⟨rfl,rfl⟩
  | append_singleton regs reg ih =>
    right
    simp only [foldl_append,foldl_cons,foldl_nil]
    rcases ih with ⟨rfl,none_⟩ | ⟨best,⟨i,at_,most⟩,found⟩
    · refine ⟨reg,⟨0,rfl,?_⟩,by rw [none_,newer]⟩
      intro j other there
      rcases getElem?_concat_eq_some.mp there with old | ⟨rfl,rfl⟩
      · cases old
      · exact ⟨le_rfl,fun _ => le_rfl⟩
    · have bound := (List.getElem?_eq_some_iff.mp at_).1
      simp only [found,newer]
      split
      next older =>
        refine ⟨best,⟨i,by rw [getElem?_append_left bound]; exact at_,?_⟩,rfl⟩
        intro j other there
        rcases getElem?_concat_eq_some.mp there with old | ⟨rfl,rfl⟩
        · exact most j other old
        · exact ⟨older.le,fun le => absurd older (not_lt.mpr le)⟩
      next newer_ =>
        refine ⟨reg,⟨regs.length,by simp,?_⟩,rfl⟩
        intro j other there
        rcases getElem?_concat_eq_some.mp there with old | ⟨rfl,rfl⟩
        · exact ⟨(most j other old).1.trans (not_lt.mp newer_),fun _ => (List.getElem?_eq_some_iff.mp old).1.le⟩
        · exact ⟨le_rfl,fun _ => le_rfl⟩

def key : FactorDefinition × String × Time :=
  (reg.definition,reg.versionHash,reg.registeredAt)

/-- The list holds the registrations of the log, each with the status the log gives it. -/
structure Kept (g : Governance) (h : History) : Prop where
  indexed : Indexed h.book
  valid : ∀ reg ∈ h.book.ordered, reg.validate g = .ok ()
  keys : h.book.ordered.map key = (versions h.log).map key
  status : ∀ reg ∈ h.book.ordered,
    reg.status = if withdrawn h.log reg.definition.name reg.versionHash then .rolledBack else .active
  known : ∀ name hash, withdrawn h.log name hash = true → h.book.lookup name hash ≠ none

section Steps
variable {g : Governance} {h : History} {op : Op} {reply : Reply} {after : RegistrationBook}

section
variable (log : List (Op × Reply)) (event : Op × Reply)

theorem versions_concat : versions (log ++ [event]) = versions log ++ (registeredBy event).toList := by
  cases found : registeredBy event <;> simp [found,versions]

theorem withdrawn_concat (name : FactorType) (hash : String) :
    withdrawn (log ++ [event]) name hash = (withdrawn log name hash || rollsBack name hash event) := by
  simp [withdrawn]

end

theorem failed_silent (failed : reply.Failed) (op : Op) (name : FactorType) (hash : String) :
    registeredBy (op,reply) = none ∧ rollsBack name hash (op,reply) = false := by
  cases reply with
  | registered result | rolledBack result =>
    cases result with
    | error => exact ⟨rfl,by cases op <;> rfl⟩
    | ok => cases failed

theorem Kept.called (kept : Kept g h) (called : Called g h.book op reply after) :
    Kept g ⟨after,h.log ++ [(op,reply)]⟩ := by
  cases called with
  | failed _ _ failed =>
    have silent := failed_silent failed op
    refine ⟨kept.indexed,kept.valid,?_,?_,?_⟩
    · simp only [versions_concat,(silent "" "").1,Option.toList_none,append_nil]
      exact kept.keys
    · simp only [withdrawn_concat,(silent _ _).2,Bool.or_false]
      exact kept.status
    · simp only [withdrawn_concat,(silent _ _).2,Bool.or_false]
      exact kept.known
  | registered d registrar reason now reg added audit active valid done =>
    obtain ⟨free,ordered,lookups⟩ := add_ok done
    have silent (name : FactorType) (hash : String) :
        rollsBack name hash (.register d registrar reason now,.registered (.ok reg)) = false := rfl
    refine ⟨fun name hash i => kept.indexed.add done name hash i,?_,?_,?_,?_⟩
    · intro other member
      rw [ordered] at member
      rcases mem_append.mp member with old | new
      · exact kept.valid other old
      · exact mem_singleton.mp new ▸ valid
    · simp only [versions_concat,registeredBy,ordered,Option.toList_some,map_append]
      rw [kept.keys]
    · intro other member
      rw [ordered] at member
      simp only [withdrawn_concat,silent,Bool.or_false]
      rcases mem_append.mp member with old | new
      · exact kept.status other old
      · obtain rfl := mem_singleton.mp new
        rw [active,if_neg]
        exact fun gone => kept.known _ _ gone free
    · intro name hash gone
      simp only [withdrawn_concat,silent,Bool.or_false] at gone
      change added.lookup name hash ≠ none
      rw [lookups]
      split
      · exact Option.some_ne_none _
      · exact kept.known name hash gone
  | rolledBack name hash actor reason now i reg _ found rewrites =>
    obtain ⟨_,listed,names,hashes⟩ := (kept.indexed name hash i).mp found
    cases rewrites.found.symm.trans listed
    have entries {other : FactorRegistration} (member : other ∈ after.ordered) :
        other = rolled reg actor reason now ∨ ∃ j, i ≠ j ∧ h.book.ordered[j]? = some other := by
      obtain ⟨j,there⟩ := mem_iff_getElem?.mp member
      rw [rewrites.get] at there
      split at there
      · exact .inl (Option.some.inj there).symm
      · exact .inr ⟨j,by assumption,there⟩
    refine ⟨kept.indexed.rewrites rewrites,?_,?_,?_,?_⟩
    · intro other member
      rcases entries member with rfl | ⟨j,-,there⟩
      · exact validate_rolled (kept.valid reg (mem_of_getElem? listed))
      · exact kept.valid other (mem_of_getElem? there)
    · simp only [versions_concat,registeredBy,Option.toList_none,append_nil]
      rw [← kept.keys]
      refine ext_getElem? fun j => ?_
      rw [getElem?_map,getElem?_map,rewrites.get]
      split
      next own =>
        rw [← own,listed]
        rfl
      · rfl
    · intro other member
      rw [withdrawn_concat]
      rcases entries member with rfl | ⟨j,differs,there⟩
      · simp [rolled,rollsBack,names,hashes]
      · have apart : ¬ (name = other.definition.name ∧ hash = other.versionHash) := by
          rintro ⟨rfl,rfl⟩
          have second := (kept.indexed _ _ j).mpr ⟨other,there,rfl,rfl⟩
          exact differs (Option.some.inj (found.symm.trans second))
        simp only [rollsBack,apart,decide_false,Bool.or_false]
        exact kept.status other (mem_of_getElem? there)
    · intro other version gone
      rw [withdrawn_concat,Bool.or_eq_true] at gone
      rw [lookup,rewrites.byNameHash]
      rcases gone with before | now_
      · exact kept.known other version before
      · obtain ⟨rfl,rfl⟩ : name = other ∧ hash = version := by simpa [rollsBack] using now_
        exact fun missing => Option.some_ne_none i (found.symm.trans missing)

theorem Kept.step (kept : Kept g h) (op : Op) : Kept g (h.step g op) := kept.called (call_called g h.book op)

theorem kept_run (kept : Kept g h) (ops : List Op) : Kept g (run (History.step g) h ops) := by
  induction ops generalizing h with
  | nil => exact kept
  | cons op ops ih => exact ih (kept.step op)

theorem kept_history (g : Governance) (ops : List Op) : Kept g (history g ops) := by
  refine kept_run ⟨?_,?_,rfl,?_,?_⟩ ops
  · intro name hash i
    simp [lookup,newRegistrationBook]
  · simp [newRegistrationBook]
  · simp [newRegistrationBook]
  · simp [withdrawn]

theorem Kept.effective (kept : Kept g h) (name : FactorType) :
    standing h.log name = [] ∧ h.book.resolveEffective name = none ∨ ∃ reg, Latest (standing h.log name) reg ∧
        h.book.resolveEffective name = some (reg.definition,reg.versionHash) := by
  let active (reg : FactorRegistration) : Bool := reg.definition.name = name ∧ reg.status = .active
  have best : h.book.resolveEffective name =
      ((h.book.ordered.filter active).foldl newer none).map fun reg => (reg.definition,reg.versionHash) := by
    simp only [resolveEffective,foldl_filter,active,decide_eq_true_eq]
  have keys : (h.book.ordered.filter active).map key = (standing h.log name).map key := by
    let live (k : FactorDefinition × String × Time) : Bool := k.1.name = name ∧ ¬ withdrawn h.log name k.2.1
    have same : h.book.ordered.filter active = h.book.ordered.filter (live ∘ key) := by
      refine filter_congr fun reg member => decide_eq_decide.mpr (and_congr_right fun own => ?_)
      change reg.status = .active ↔ ¬ withdrawn h.log name reg.versionHash = true
      rw [kept.status reg member,own]
      by_cases gone : withdrawn h.log name reg.versionHash = true
      · simp [gone]
      · simp [gone]
    rw [same,← filter_map,kept.keys,filter_map]
    rfl
  have matches_ {i : ℕ} {reg : FactorRegistration} :
      (∃ other, (h.book.ordered.filter active)[i]? = some other ∧ key other = key reg) ↔
        ∃ other, (standing h.log name)[i]? = some other ∧ key other = key reg := by
    have at_ := congrArg (·[i]? = some (key reg)) keys
    simpa only [getElem?_map,map_eq_some_iff,eq_iff_iff] using at_
  rcases newest_latest (h.book.ordered.filter active) with ⟨empty,nothing⟩ | ⟨reg,⟨i,there,most⟩,found⟩
  · rw [empty] at keys
    exact .inl ⟨map_eq_nil_iff.mp keys.symm,by rw [best,nothing]; rfl⟩
  · obtain ⟨version,stands,same⟩ := matches_.mp ⟨reg,there,rfl⟩
    simp only [key,Prod.mk.injEq] at same
    obtain ⟨definition,hash,time⟩ := same
    refine .inr ⟨version,⟨i,stands,fun j other listed => ?_⟩,by rw [best,found,definition,hash]; rfl⟩
    obtain ⟨twin,there,same⟩ := matches_.mpr ⟨other,listed,rfl⟩
    simp only [key,Prod.mk.injEq] at same
    rw [time,← same.2.2]
    exact most j twin there

theorem Kept.pinned_iff (kept : Kept g h) (name : FactorType) (hash : String) (d : FactorDefinition) :
    h.book.resolvePinned name hash = some d ↔ ∃ t, (d,hash,t) ∈ (versions h.log).map key ∧ d.name = name := by
  rw [← kept.keys]
  simp only [resolvePinned,map_eq_some_iff,bind_eq_some_iff,mem_map,key,Prod.mk.injEq]
  constructor
  · rintro ⟨reg,⟨i,found,there⟩,rfl⟩
    obtain ⟨_,listed,names,hashes⟩ := (kept.indexed name hash i).mp found
    cases there.symm.trans listed
    exact ⟨reg.registeredAt,⟨reg,mem_of_getElem? there,rfl,hashes,rfl⟩,names⟩
  · rintro ⟨_,⟨reg,member,rfl,rfl,-⟩,rfl⟩
    obtain ⟨i,there⟩ := mem_iff_getElem?.mp member
    exact ⟨reg,⟨i,(kept.indexed _ _ i).mpr ⟨reg,there,rfl,rfl⟩,there⟩,rfl⟩

theorem versions_run (h : History) (ops : List Op) :
    versions h.log <+: versions (run (History.step g) h ops).log := by
  induction ops generalizing h with
  | nil => exact prefix_refl _
  | cons op ops ih =>
    refine IsPrefix.trans ?_ (ih (h.step g op))
    rw [History.step,versions_concat]
    exact prefix_append _ _

end Steps

structure Same (b b' : RegistrationBook) : Prop where
  ordered : b'.ordered = b.ordered
  lookup : ∀ name hash, b'.lookup name hash = b.lookup name hash

section Rebuilding
variable {g : Governance} {b b' : RegistrationBook} {reg : FactorRegistration}

theorem Same.of_indexed (indexed : Indexed b) (indexed' : Indexed b') (ordered : b'.ordered = b.ordered) : Same b b' := by
  refine ⟨ordered,fun name hash => Option.ext fun i => ?_⟩
  rw [indexed',indexed,ordered]

theorem add_of_free (free : b.lookup reg.definition.name reg.versionHash = none) : ∃ after, b.add reg = .ok after := by
  simp only [add,free]
  exact ⟨_,rfl⟩

section
variable (same : Same b b')
include same

theorem Same.add (reg : FactorRegistration) : (∃ e, b.add reg = .error e ∧ b'.add reg = .error e) ∨
      ∃ after after', b.add reg = .ok after ∧ b'.add reg = .ok after' ∧ Same after after' := by
  cases found : b.lookup reg.definition.name reg.versionHash with
  | some =>
    have found' := (same.lookup _ _).trans found
    simp only [RegistrationBook.add,found,found']
    exact .inl ⟨_,rfl,rfl⟩
  | none =>
    obtain ⟨after,added⟩ := add_of_free found
    obtain ⟨after',added'⟩ := add_of_free ((same.lookup _ _).trans found)
    obtain ⟨-,ordered,lookups⟩ := add_ok added
    obtain ⟨-,ordered',lookups'⟩ := add_ok added'
    refine .inr ⟨after,after',added,added',by rw [ordered,ordered',same.ordered],fun name hash => ?_⟩
    rw [lookups,lookups',same.ordered,same.lookup]

theorem Same.call (op : Op) : (b'.call g op).1 = (b.call g op).1 ∧ Same (b.step g op) (b'.step g op) := by
  cases op with
  | register d registrar reason now =>
    simp only [step,RegistrationBook.call,register]
    iterate 2 (split; · exact ⟨rfl,same⟩)
    rcases same.add ⟨d,g.versionHash d,registrar,.active,now,none,"",""⟩ with ⟨e,refused,refused'⟩ |
      ⟨after,after',added,added',kept⟩
    · simp only [refused,refused']
      exact ⟨trivial,same⟩
    · simp only [added,added']
      exact ⟨trivial,kept.ordered,kept.lookup⟩
  | rollback =>
    simp only [step,RegistrationBook.call,rollback,same.ordered,same.lookup]
    iterate 3 (split; · exact ⟨rfl,same⟩)
    · exact ⟨rfl,rfl,same.lookup⟩

theorem Same.run (ops : List Op) : Same (Library.run (step g) b ops) (Library.run (step g) b' ops) := by
  induction ops generalizing b b' with
  | nil => exact same
  | cons op ops ih => exact ih (same.call op).2

theorem Same.effective (name : FactorType) : b'.resolveEffective name = b.resolveEffective name := by
  rw [resolveEffective,same.ordered,resolveEffective]

theorem Same.pinned (name : FactorType) (hash : String) : b'.resolvePinned name hash = b.resolvePinned name hash := by
  rw [resolvePinned,same.ordered,same.lookup,resolvePinned]

end

theorem rebuilt (indexed : Indexed b) (valid : ∀ reg ∈ b.ordered, reg.validate g = .ok ()) :
    ∃ b', newRegistrationBookFrom g b.registrations = .ok b' ∧ Same b b' := by
  -- what is rebuilt so far is the front of the list, whose keys no later registration has
  have front (rest : List FactorRegistration) (built : RegistrationBook) (soFar : Indexed built)
      (split : built.ordered ++ rest = b.ordered) :
      ∃ last, rest.foldlM (fun b reg => do
        (reg.validate g).mapError RegisterError.invalid
        b.add reg) built = .ok last ∧ Indexed last ∧ last.ordered = b.ordered := by
    induction rest generalizing built with
    | nil => exact ⟨built,rfl,soFar,by rw [← split,append_nil]⟩
    | cons reg rest ih =>
      have here : b.ordered[built.ordered.length]? = some reg := by simp [← split]
      have free : built.lookup reg.definition.name reg.versionHash = none := by
        refine Option.eq_none_iff_forall_not_mem.mpr fun i found => ?_
        obtain ⟨other,there,keys⟩ := (soFar _ _ i).mp found
        have bound := (List.getElem?_eq_some_iff.mp there).1
        have old : b.ordered[i]? = some other := by rw [← split,getElem?_append_left bound,there]
        have first := (indexed _ _ i).mpr ⟨other,old,keys⟩
        have second := (indexed _ _ _).mpr ⟨reg,here,rfl,rfl⟩
        exact bound.ne (Option.some.inj (first.symm.trans second))
      obtain ⟨after,added⟩ := add_of_free free
      obtain ⟨last,done,kept⟩ := ih after (soFar.add added) (by simp [(add_ok added).2.1,split])
      refine ⟨last,?_,kept⟩
      rw [foldlM_cons,valid reg (mem_of_getElem? here)]
      exact (bind_eq_ok.mpr ⟨after,added,done⟩)
  obtain ⟨last,done,kept,ordered⟩ := front b.ordered newRegistrationBook
    (fun name hash i => by simp [lookup,newRegistrationBook]) rfl
  exact ⟨last,done,.of_indexed indexed kept ordered⟩

end Rebuilding

structure Governed (g : Governance) (ops : List Op) : Prop where
  pinned : ∀ before after name hash d, ops = before ++ after →
    (history g before).book.resolvePinned name hash = some d → (history g ops).book.resolvePinned name hash = some d
  effective : ∀ name, standing (history g ops).log name = [] ∧ (history g ops).book.resolveEffective name = none ∨
    ∃ reg, Latest (standing (history g ops).log name) reg ∧
      (history g ops).book.resolveEffective name = some (reg.definition,reg.versionHash)
  failed : ∀ op, ((history g ops).book.call g op).1.Failed → (history g ops).book.step g op = (history g ops).book
  rebuilt : ∃ book, newRegistrationBookFrom g (history g ops).book.registrations = .ok book ∧
    ∀ more, (∀ name, (run (step g) book more).resolveEffective name =
        (run (step g) (history g ops).book more).resolveEffective name) ∧
      (∀ name hash, (run (step g) book more).resolvePinned name hash =
        (run (step g) (history g ops).book more).resolvePinned name hash) ∧
      ∀ op, ((run (step g) book more).call g op).1 = ((run (step g) (history g ops).book more).call g op).1

theorem registration_governed (ops : List Op) : Governed g ops := by
  have kept := kept_history g ops
  refine ⟨?_,kept.effective,?_,?_⟩
  · rintro before after name hash d rfl found
    obtain ⟨t,member,own⟩ := ((kept_history g before).pinned_iff name hash d).mp found
    refine (kept.pinned_iff name hash d).mpr ⟨t,?_,own⟩
    rw [history,run_append]
    exact ((versions_run _ after).map key).subset member
  · intro op failed
    have called := call_called g (history g ops).book op
    rw [step]
    generalize (history g ops).book.call g op = answer at called failed ⊢
    obtain ⟨reply,after⟩ := answer
    cases called with
    | failed => rfl
    | _ => cases failed
  · obtain ⟨book,done,same⟩ := rebuilt kept.indexed kept.valid
    refine ⟨book,done,fun more => ?_⟩
    have later := same.run (g := g) more
    exact ⟨later.effective,later.pinned,fun op => (later.call op).1⟩

end RegistrationBook

end QuantTrading.Factor
