import QuantTrading.Expression.Operators
import QuantTrading.Library.Streams

/-! The stateful indicators: moving averages and the filter that take one value at a time. They share
their core with the batch operators; around it they refuse values that are not finite, give no
value before the warm-up is over, and save and load their state as a document.
-/
namespace QuantTrading
open Library Expression

namespace Indicator

/-- A value of a saved state. A numeral is integral when it is written without fraction and
exponent. -/
inductive Json where
  | null
  | numeral (q : ℚ) (integral : Bool)
  | other
deriving DecidableEq

inductive Document where
  | empty
  | malformed
  | null
  | object (fields : List (String × Json))
deriving DecidableEq

inductive FieldKind where
  | int | float
deriving DecidableEq

def encodeInt (n : Int) : Json := .numeral n true

def encodeFloat (q : ℚ) : Json := .numeral q (q.den = 1)

def fieldOf (schema : List (String × FieldKind)) (name : String) : Option (String × FieldKind) :=
  (schema.find? (·.1 = name)).or (schema.find? (·.1.toLower = name.toLower))

def decodeField (schema : List (String × FieldKind)) (values : String → ℚ) (field : String × Json) : Except String (String → ℚ) :=
  match fieldOf schema field.1, field.2 with
  | none, _ => .error "indicator: LoadState 解析失败"
  | some _, .null => .ok values
  | some (name,kind), .numeral q integral =>
    if kind = .int ∧ integral = false then .error "indicator: LoadState 解析失败"
    else .ok fun other => if other = name then q else values other
  | some _, .other => .error "indicator: LoadState 解析失败"

def rawField (fields : List (String × Json)) (name : String) : Option Json := (fields.reverse.find? (·.1 = name)).map (·.2)

def decodeVersionedState (schema : List (String × FieldKind)) (wantVersion : ℚ) : Document → Except String (String → ℚ)
  | .empty => .error "indicator: LoadState 收到空状态"
  | .malformed => .error "indicator: LoadState 解析失败"
  | .null => .error "indicator: LoadState 收到 null 状态"
  | .object fields => do
    let values ← fields.foldlM (decodeField schema) fun _ => 0
    match schema.find? fun field => (rawField fields field.1).isNone with
    | some missing => .error ("indicator: LoadState 缺字段 " ++ missing.1)
    | none =>
      let version : Except String ℚ :=
        match rawField fields "version" with
        | some (.numeral q true) => .ok q
        | some .null => .ok 0
        | _ => .error "indicator: LoadState version 解析失败"
      let version ← version
      if version ≠ wantVersion then .error "indicator: LoadState 版本不匹配" else .ok values

/-- What the operators differ in: the core, the names in their messages and what they save. -/
structure Operator (S : Type) where
  title : String
  warmup : Int
  fresh : S
  step : S → ℚ → S
  ready : S → Bool
  value : S → ℚ
  count : S → Int
  schema : List (String × FieldKind)
  save : S → List (String × Json)
  commit : S → (String → ℚ) → S

def stateVersion : Int := 1

def rma (n : Int) : Operator RmaCore where
  title := "RMA"
  warmup := n
  fresh := ⟨n,0,0,0⟩
  step := RmaCore.step
  ready c := c.count ≥ c.n
  value := RmaCore.prev
  count := RmaCore.count
  schema := [("version",.int),("count",.int),("sum",.float),("prev",.float)]
  save c := [("version",encodeInt stateVersion),("count",encodeInt c.count),("sum",encodeFloat c.sum),("prev",encodeFloat c.prev)]
  commit c s := { c with count := ⌊s "count"⌋, sum := s "sum", prev := s "prev" }

variable (m : Numerics)

def ewma (alpha : ℚ) : Operator EwmaCore where
  title := "EWMA"
  warmup := ewmaWarmup m alpha
  fresh := ⟨alpha,ewmaWarmup m alpha,0,0⟩
  step := EwmaCore.step
  ready c := c.count ≥ c.warm
  value := EwmaCore.prev
  count := EwmaCore.count
  schema := [("version",.int),("count",.int),("prev",.float)]
  save c := [("version",encodeInt stateVersion),("count",encodeInt c.count),("prev",encodeFloat c.prev)]
  commit c s := { c with count := ⌊s "count"⌋, prev := s "prev" }

def kalman (q r : ℚ) : Operator KalmanCore where
  title := "Kalman"
  warmup := 1
  fresh := ⟨q,r,r,0,0,0⟩
  step := KalmanCore.step
  ready c := c.count ≥ 1
  value := KalmanCore.x
  count := KalmanCore.count
  schema := [("version",.int),("count",.int),("x",.float),("p",.float)]
  save c := [("version",encodeInt stateVersion),("count",encodeInt c.count),("x",encodeFloat c.x),("p",encodeFloat c.p)]
  commit c s := { c with count := ⌊s "count"⌋, x := s "x", p := s "p" }

def newRMA (n : Int) : Except String (Operator RmaCore) :=
  if n < 1 then .error ("indicator: NewRMA n=" ++ toString n ++ " 非法（要求 n ≥ 1）") else .ok (rma n)

def newEWMA (alpha : Value) : Except String (Operator EwmaCore) :=
  match alpha.filter fun a => 0 < a ∧ a ≤ 1 with
  | none => .error ("indicator: NewEWMA α=" ++ m.format alpha ++ " 非法（要求 0 < α ≤ 1）")
  | some a => .ok (ewma m a)

def newKalman (q r : Value) : Except String (Operator KalmanCore) :=
  match q.filter (0 ≤ ·) with
  | none => .error ("indicator: NewKalman q=" ++ m.format q ++ " 非法（要求 q ≥ 0 且有限）")
  | some q =>
    match r.filter (0 < ·) with
    | none => .error ("indicator: NewKalman r=" ++ m.format r ++ " 非法（要求 r > 0 且有限）")
    | some r => .ok (kalman q r)

namespace Operator
variable {S : Type} (op : Operator S)

def update (s : S) : Value → S × Option String
  | none => (s,some ("indicator: " ++ op.title ++ ".Update 收到非有限输入 NaN（拒绝，状态不变）"))
  | some x => (op.step s x,none)

def currentValue (s : S) : Except String ℚ :=
  if op.ready s then .ok (op.value s)
  else .error ("indicator: " ++ op.title ++ ".Value warmup 未完成（已喂 " ++ toString (op.count s) ++ " 根，需 " ++
    toString op.warmup ++ " 根）")

def saveState (s : S) : Document := .object (op.save s)

def loadState (s : S) (b : Document) : S × Option String :=
  match decodeVersionedState op.schema stateVersion b with
  | .error err => (s,some err)
  | .ok loaded =>
    if loaded "count" < 0 then
      (s,some ("indicator: " ++ op.title ++ ".LoadState count=" ++ toString ⌊loaded "count"⌋ ++ " 非法"))
    else (op.commit s loaded,none)

def output (s : S) : Value := (op.currentValue s).toOption

def stream (xs : Series) : Except String Series :=
  (feed (fun s x => settled (op.update s x)) op.output op.fresh xs).map Prod.snd

/-- The same, with the state saved after each piece and loaded into a fresh operator for the next. -/
def streamPieces (pieces : List Series) : Except String Series :=
  feedPieces (fun s x => settled (op.update s x)) op.output
    (fun s => settled (op.loadState op.fresh (op.saveState s))) op.fresh pieces

/-- Fed one by one or at once, saved and loaded between any pieces or not, the operator gives the
same values; each is within any bounds of the inputs so far, and what it refuses changes nothing. -/
structure Faithful (batch : Series → Except String Series) : Prop where
  batched : ∀ xs out, batch xs = .ok out ↔ op.stream xs = .ok out
  resumed : ∀ pieces, op.streamPieces pieces = op.stream pieces.flatten
  bounded : ∀ xs out i v, op.stream xs = .ok out → out[i]? = some (some v) →
    ∀ lo hi, (∀ x, some x ∈ xs.take (i + 1) → lo ≤ x ∧ x ≤ hi) → lo ≤ v ∧ v ≤ hi
  updateRefused : ∀ s x, (op.update s x).2 ≠ none → (op.update s x).1 = s
  loadRefused : ∀ s b, (op.loadState s b).2 ≠ none → (op.loadState s b).1 = s

theorem settled_update_eq_ok {s next : S} {x : Value} :
    settled (op.update s x) = .ok next ↔ ∃ q, x = some q ∧ op.step s q = next := by
  cases x with
  | _ => simp [update,settled]

theorem output_eq (s : S) : op.output s = if op.ready s then some (op.value s) else none := by
  unfold output currentValue
  split <;> rfl

theorem batch_eq_ok_iff (name : String) (i : Nat) (s : S) (xs out : Series) :
    batch name op.step op.ready op.value i s xs = .ok out ↔
      ∃ last, feed (fun s x => settled (op.update s x)) op.output s xs = .ok (last,out) := by
  induction xs generalizing i s out with
  | nil => simp [batch,feed,eq_comm]
  | cons x xs ih =>
    cases x with
    | none => simp [batch,feed,update,settled,bind,Except.bind]
    | some q =>
      simp only [feed_cons_eq_ok,settled_update_eq_ok,Option.some.injEq,exists_eq_left']
      rw [batch,bind_eq_ok]
      constructor
      · rintro ⟨rest,later,same⟩
        obtain ⟨last,fed⟩ := (ih (i + 1) (op.step s q) rest).mp later
        refine ⟨last,_,rest,rfl,fed,?_⟩
        rw [output_eq]
        exact (pure_eq_ok.mp same).symm
      · rintro ⟨last,_,rest,rfl,fed,rfl⟩
        refine ⟨rest,(ih (i + 1) (op.step s q) rest).mpr ⟨last,fed⟩,?_⟩
        rw [output_eq]
        rfl

/-- The state stays within bounds that the inputs keep, and so does what is read from it. -/
structure Keeps (Inv : ℚ → ℚ → S → Prop) : Prop where
  fresh : ∀ lo hi, Inv lo hi op.fresh
  step : ∀ lo hi s x, lo ≤ x → x ≤ hi → Inv lo hi s → Inv lo hi (op.step s x)
  value : ∀ lo hi s, Inv lo hi s → op.ready s = true → lo ≤ op.value s ∧ op.value s ≤ hi

/-- Loading what was saved gives back the states that the operator can reach. -/
structure Restores (Own : S → Prop) : Prop where
  fresh : Own op.fresh
  step : ∀ s x, Own s → Own (op.step s x)
  load : ∀ s, Own s → op.loadState op.fresh (op.saveState s) = (s,none)

theorem update_refused (s : S) (x : Value) (refused : (op.update s x).2 ≠ none) : (op.update s x).1 = s := by
  cases x with
  | none => rfl
  | some => exact absurd rfl refused

theorem load_refused (s : S) (b : Document) (refused : (op.loadState s b).2 ≠ none) : (op.loadState s b).1 = s := by
  unfold loadState at refused ⊢
  split
  · rfl
  rename_i loaded decoded
  rw [decoded] at refused
  dsimp only at refused
  split
  · rfl
  rename_i counted
  rw [if_neg counted] at refused
  exact absurd rfl refused

variable {op}

theorem stream_eq_ok_iff {xs out : Series} :
    op.stream xs = .ok out ↔ ∃ last, feed (fun s x => settled (op.update s x)) op.output op.fresh xs = .ok (last,out) := by
  rw [stream,map_eq_ok]
  constructor
  · rintro ⟨⟨last,_⟩,fed,rfl⟩
    exact ⟨last,fed⟩
  · rintro ⟨last,fed⟩
    exact ⟨_,fed,rfl⟩

variable {Inv : ℚ → ℚ → S → Prop} {Own : S → Prop}

theorem Keeps.bounded (keeps : op.Keeps Inv) {xs out : Series} {i : Nat} {v : ℚ}
    (streamed : op.stream xs = .ok out) (given : out[i]? = some (some v)) {lo hi : ℚ}
    (bounds : ∀ x, some x ∈ xs.take (i + 1) → lo ≤ x ∧ x ≤ hi) : lo ≤ v ∧ v ≤ hi := by
  obtain ⟨last,fed⟩ := stream_eq_ok_iff.mp streamed
  obtain ⟨middle,before,reached,read⟩ := feed_output fed given
  have inside : Inv lo hi middle := by
    refine feed_invariant reached ?_ (keeps.fresh lo hi)
    intro x listed s next held stepped
    obtain ⟨q,rfl,rfl⟩ := op.settled_update_eq_ok.mp stepped
    exact keeps.step lo hi s q (bounds q listed).1 (bounds q listed).2 held
  rw [output_eq] at read
  split at read
  · rename_i ready
    cases read
    exact keeps.value lo hi middle inside ready
  · cases read

theorem Restores.resumed (restores : op.Restores Own) (pieces : List Series) :
    op.streamPieces pieces = op.stream pieces.flatten := by
  refine feedPieces_eq ?_ ?_ restores.fresh pieces
  · intro x s next held stepped
    obtain ⟨q,rfl,rfl⟩ := op.settled_update_eq_ok.mp stepped
    exact restores.step s q held
  · intro s held
    rw [restores.load s held]
    rfl

theorem faithful {batch : Series → Except String Series}
    (batched : ∀ xs out, batch xs = .ok out ↔ op.stream xs = .ok out) (keeps : op.Keeps Inv) (restores : op.Restores Own) :
    op.Faithful batch :=
  ⟨batched,restores.resumed,fun _ _ _ _ streamed given _ _ bounds => keeps.bounded streamed given bounds,
    op.update_refused,op.load_refused⟩

end Operator

theorem moved_within {lo hi a x k : ℚ} (nonneg : 0 ≤ k) (part : k ≤ 1) (inside : lo ≤ a ∧ a ≤ hi) (given : lo ≤ x ∧ x ≤ hi) :
    lo ≤ a + k * (x - a) ∧ a + k * (x - a) ≤ hi := by
  have mixed : a + k * (x - a) = (1 - k) * a + k * x := by ring
  rw [mixed]
  have rest : 0 ≤ 1 - k := sub_nonneg.mpr part
  constructor
  · calc lo = (1 - k) * lo + k * lo := by ring
      _ ≤ (1 - k) * a + k * x := add_le_add (mul_le_mul_of_nonneg_left inside.1 rest) (mul_le_mul_of_nonneg_left given.1 nonneg)
  · calc (1 - k) * a + k * x ≤ (1 - k) * hi + k * hi :=
          add_le_add (mul_le_mul_of_nonneg_left inside.2 rest) (mul_le_mul_of_nonneg_left given.2 nonneg)
      _ = hi := by ring

theorem rma_restores (n : Int) : (rma n).Restores fun c => c.n = n ∧ 0 ≤ c.count where
  fresh := ⟨rfl,le_rfl⟩
  step c x own := by
    change (RmaCore.step c x).n = n ∧ 0 ≤ (RmaCore.step c x).count
    simp only [RmaCore.step]
    split_ifs <;> exact ⟨own.1,by dsimp only; omega⟩
  load c own := by
    obtain ⟨rfl,counted⟩ := own
    have nonneg : ¬ (c.count : ℚ) < 0 := by exact_mod_cast counted.not_gt
    simp [Operator.loadState,Operator.saveState,rma,decodeVersionedState,decodeField,fieldOf,rawField,encodeInt,encodeFloat,
      stateVersion,bind,Except.bind,pure,Except.pure,nonneg]

theorem ewma_restores (alpha : ℚ) :
    (ewma m alpha).Restores fun c => c.alpha = alpha ∧ c.warm = ewmaWarmup m alpha ∧ 0 ≤ c.count where
  fresh := ⟨rfl,rfl,le_rfl⟩
  step c x own := by
    change (EwmaCore.step c x).alpha = alpha ∧ (EwmaCore.step c x).warm = ewmaWarmup m alpha ∧ 0 ≤ (EwmaCore.step c x).count
    simp only [EwmaCore.step]
    split_ifs <;> exact ⟨own.1,own.2.1,by dsimp only; omega⟩
  load c own := by
    obtain ⟨rfl,warmed,counted⟩ := own
    have nonneg : ¬ (c.count : ℚ) < 0 := by exact_mod_cast counted.not_gt
    simp [Operator.loadState,Operator.saveState,ewma,decodeVersionedState,decodeField,fieldOf,rawField,encodeInt,encodeFloat,
      stateVersion,bind,Except.bind,pure,Except.pure,nonneg,← warmed]

theorem kalman_restores (q r : ℚ) : (kalman q r).Restores fun c => c.q = q ∧ c.r = r ∧ c.p0 = r ∧ 0 ≤ c.count where
  fresh := ⟨rfl,rfl,rfl,le_rfl⟩
  step c x own := by
    change (KalmanCore.step c x).q = q ∧ (KalmanCore.step c x).r = r ∧ (KalmanCore.step c x).p0 = r ∧ 0 ≤ (KalmanCore.step c x).count
    simp only [KalmanCore.step]
    split_ifs <;> exact ⟨own.1,own.2.1,own.2.2.1,by dsimp only; omega⟩
  load c own := by
    obtain ⟨q',r',p0,count,x,p⟩ := c
    dsimp only at own
    obtain ⟨rfl,rfl,rfl,counted⟩ := own
    have nonneg : ¬ (count : ℚ) < 0 := by exact_mod_cast counted.not_gt
    simp [Operator.loadState,Operator.saveState,kalman,decodeVersionedState,decodeField,fieldOf,rawField,encodeInt,encodeFloat,
      stateVersion,bind,Except.bind,pure,Except.pure,nonneg]

structure RmaWithin (n : Int) (lo hi : ℚ) (c : RmaCore) : Prop where
  period : c.n = n
  counted : 0 ≤ c.count
  summed : c.count ≤ n → c.count * lo ≤ c.sum ∧ c.sum ≤ c.count * hi
  smoothed : n ≤ c.count → lo ≤ c.prev ∧ c.prev ≤ hi

variable {n : Int} {alpha : ℚ} {m : Numerics}

theorem RmaWithin.step {lo hi x : ℚ} {c : RmaCore} (positive : 1 ≤ n) (held : RmaWithin n lo hi c) (above : lo ≤ x)
    (below : x ≤ hi) : RmaWithin n lo hi (RmaCore.step c x) := by
  have period : (0 : ℚ) < n := by exact_mod_cast positive
  have counted := held.counted
  simp only [RmaCore.step,held.period]
  split_ifs with warming filled
  · obtain ⟨least,most⟩ := held.summed (by omega)
    have grown : (c.count + 1 : ℚ) * lo ≤ c.sum + x ∧ c.sum + x ≤ (c.count + 1) * hi := by constructor <;> linarith
    refine ⟨rfl,by dsimp only; omega,fun _ => by exact_mod_cast grown,fun _ => ?_⟩
    have filled : (c.count + 1 : ℚ) = n := by exact_mod_cast filled
    rw [filled] at grown
    exact ⟨(le_div_iff₀ period).mpr (by linarith),(div_le_iff₀ period).mpr (by linarith)⟩
  · obtain ⟨least,most⟩ := held.summed (by omega)
    have grown : (c.count + 1 : ℚ) * lo ≤ c.sum + x ∧ c.sum + x ≤ (c.count + 1) * hi := by constructor <;> linarith
    exact ⟨rfl,by dsimp only; omega,fun _ => by exact_mod_cast grown,fun full => absurd full (by dsimp only; omega)⟩
  · refine ⟨rfl,by dsimp only; omega,fun early => absurd early warming,fun _ => ?_⟩
    have part : (1 / n : ℚ) ≤ 1 := (div_le_one period).mpr (by exact_mod_cast positive)
    have moved := moved_within (by positivity) part (held.smoothed (by omega)) ⟨above,below⟩
    rwa [one_div_mul_eq_div] at moved

theorem rma_keeps (positive : 1 ≤ n) : (rma n).Keeps (RmaWithin n) where
  fresh lo hi := ⟨rfl,le_rfl,fun _ => by simp [rma],fun full => absurd full (by dsimp only [rma]; omega)⟩
  step lo hi c x above below held := held.step positive above below
  value lo hi c held ready := held.smoothed (by simpa [rma,held.period] using ready)

structure EwmaWithin (alpha : ℚ) (lo hi : ℚ) (c : EwmaCore) : Prop where
  decay : c.alpha = alpha
  warming : 1 ≤ c.warm
  counted : 0 ≤ c.count
  smoothed : 1 ≤ c.count → lo ≤ c.prev ∧ c.prev ≤ hi

theorem EwmaWithin.step {lo hi x : ℚ} {c : EwmaCore} (positive : 0 < alpha) (part : alpha ≤ 1)
    (held : EwmaWithin alpha lo hi c) (above : lo ≤ x) (below : x ≤ hi) : EwmaWithin alpha lo hi (EwmaCore.step c x) := by
  have counted := held.counted
  simp only [EwmaCore.step,held.decay]
  split_ifs with first
  · exact ⟨rfl,held.warming,by dsimp only; omega,fun _ => ⟨above,below⟩⟩
  · refine ⟨rfl,held.warming,by dsimp only; omega,fun _ => ?_⟩
    have moved := moved_within positive.le part (held.smoothed (by omega)) ⟨above,below⟩
    have mixed : c.prev + alpha * (x - c.prev) = alpha * x + (1 - alpha) * c.prev := by ring
    rwa [mixed] at moved

theorem ewmaWarmup_pos (m : Numerics) (alpha : ℚ) : 1 ≤ ewmaWarmup m alpha := by
  simp only [ewmaWarmup]
  split_ifs <;> omega

theorem ewma_keeps (m : Numerics) (positive : 0 < alpha) (part : alpha ≤ 1) :
    (ewma m alpha).Keeps (EwmaWithin alpha) where
  fresh lo hi := ⟨rfl,ewmaWarmup_pos m alpha,le_rfl,fun fed => absurd fed (by simp [ewma])⟩
  step lo hi c x above below held := held.step positive part above below
  value lo hi c held ready := by
    have warmed : c.warm ≤ c.count := by simpa [ewma] using ready
    exact held.smoothed (held.warming.trans warmed)

/-- From the first observation on the variance is positive, so that the gain is a part of one. -/
structure KalmanWithin (q r : ℚ) (lo hi : ℚ) (c : KalmanCore) : Prop where
  process : c.q = q
  observation : c.r = r
  initial : c.p0 = r
  counted : 0 ≤ c.count
  estimated : 1 ≤ c.count → 0 < c.p ∧ lo ≤ c.x ∧ c.x ≤ hi

theorem KalmanWithin.step {q r lo hi z : ℚ} {c : KalmanCore} (nonneg : 0 ≤ q) (positive : 0 < r) (held : KalmanWithin q r lo hi c)
    (above : lo ≤ z) (below : z ≤ hi) : KalmanWithin q r lo hi (KalmanCore.step c z) := by
  have counted := held.counted
  simp only [KalmanCore.step,held.process,held.observation,held.initial]
  split_ifs with first
  · exact ⟨rfl,rfl,rfl,by dsimp only; omega,fun _ => ⟨positive,above,below⟩⟩
  · refine ⟨rfl,rfl,rfl,by dsimp only; omega,fun _ => ?_⟩
    obtain ⟨variance,inside⟩ := held.estimated (by omega)
    have predicted : 0 < c.p + q := by linarith
    have total : 0 < c.p + q + r := by linarith
    have gain : (c.p + q) / (c.p + q + r) < 1 := (div_lt_one total).mpr (by linarith)
    exact ⟨mul_pos (sub_pos.mpr gain) predicted,moved_within (div_pos predicted total).le gain.le inside ⟨above,below⟩⟩

theorem kalman_keeps {q r : ℚ} (nonneg : 0 ≤ q) (positive : 0 < r) : (kalman q r).Keeps (KalmanWithin q r) where
  fresh lo hi := ⟨rfl,rfl,rfl,le_rfl,fun fed => absurd fed (by simp [kalman])⟩
  step lo hi c x above below held := held.step nonneg positive above below
  value lo hi c held ready := (held.estimated (by simpa [kalman] using ready)).2

theorem rmaBatch_eq_ok_iff (positive : 1 ≤ n) (xs out : Series) : rmaBatch xs n = .ok out ↔ (rma n).stream xs = .ok out := by
  rw [rmaBatch,if_neg (by omega),Operator.stream_eq_ok_iff]
  exact (rma n).batch_eq_ok_iff "RMABatch" 0 _ xs out

theorem ewmaBatch_eq_ok_iff (m : Numerics) (valid : 0 < alpha ∧ alpha ≤ 1) (xs out : Series) :
    ewmaBatch m xs (some alpha) = .ok out ↔ (ewma m alpha).stream xs = .ok out := by
  rw [Operator.stream_eq_ok_iff]
  simp only [ewmaBatch,Option.filter,valid,and_self,decide_true,if_true]
  exact (ewma m alpha).batch_eq_ok_iff "EWMABatch" 0 _ xs out

theorem kalmanBatch_eq_ok_iff (m : Numerics) {q r : ℚ} (nonneg : 0 ≤ q) (positive : 0 < r) (xs out : Series) :
    kalmanBatch m xs (some q) (some r) = .ok out ↔ (kalman q r).stream xs = .ok out := by
  rw [Operator.stream_eq_ok_iff]
  simp only [kalmanBatch,Option.filter,nonneg,positive,decide_true,if_true]
  exact (kalman q r).batch_eq_ok_iff "KalmanBatch" 0 _ xs out

theorem newRMA_eq_ok {op : Operator RmaCore} (made : newRMA n = .ok op) : 1 ≤ n ∧ op = rma n := by
  unfold newRMA at made
  split_ifs at made with small
  cases made
  exact ⟨by omega,rfl⟩

theorem newEWMA_eq_ok {alpha : Value} {op : Operator EwmaCore} (made : newEWMA m alpha = .ok op) :
    ∃ a, alpha = some a ∧ (0 < a ∧ a ≤ 1) ∧ op = ewma m a := by
  unfold newEWMA at made
  split at made
  · cases made
  rename_i a kept
  cases made
  obtain ⟨given,valid⟩ := filter_eq_some_iff.mp kept
  exact ⟨a,given,of_decide_eq_true valid,rfl⟩

theorem newKalman_eq_ok {q r : Value} {op : Operator KalmanCore} (made : newKalman m q r = .ok op) :
    ∃ q' r', q = some q' ∧ r = some r' ∧ 0 ≤ q' ∧ 0 < r' ∧ op = kalman q' r' := by
  unfold newKalman at made
  split at made
  · cases made
  rename_i q' kept
  obtain ⟨given,nonneg⟩ := filter_eq_some_iff.mp kept
  split at made
  · cases made
  rename_i r' kept'
  cases made
  obtain ⟨given',positive⟩ := filter_eq_some_iff.mp kept'
  exact ⟨q',r',given,given',of_decide_eq_true nonneg,of_decide_eq_true positive,rfl⟩

/-- Every operator that its constructor accepts gives the values of its batch function. -/
theorem stream_equals_batch (m : Numerics) : (∀ n op, newRMA n = .ok op → op.Faithful (rmaBatch · n)) ∧
      (∀ alpha op, newEWMA m alpha = .ok op → op.Faithful (ewmaBatch m · alpha)) ∧
      ∀ q r op, newKalman m q r = .ok op → op.Faithful (kalmanBatch m · q r) := by
  refine ⟨?_,?_,?_⟩
  · intro n op made
    obtain ⟨positive,rfl⟩ := newRMA_eq_ok made
    exact Operator.faithful (rmaBatch_eq_ok_iff positive) (rma_keeps positive) (rma_restores n)
  · intro alpha op made
    obtain ⟨a,rfl,valid,rfl⟩ := newEWMA_eq_ok made
    exact Operator.faithful (ewmaBatch_eq_ok_iff m valid) (ewma_keeps m valid.1 valid.2) (ewma_restores m a)
  · intro q r op made
    obtain ⟨q,r,rfl,rfl,nonneg,positive,rfl⟩ := newKalman_eq_ok made
    exact Operator.faithful (kalmanBatch_eq_ok_iff m nonneg positive) (kalman_keeps nonneg positive) (kalman_restores q r)

/-- Four values through a period of two, with the state saved and loaded in the warm-up. -/
theorem rma_resumed_in_warmup :
    newRMA 2 = .ok (rma 2) ∧ rmaBatch [some 1,some 3,some 4,some 0] 2 = .ok [none,some 2,some 3,some (3 / 2)] ∧
      (rma 2).streamPieces [[some 1],[some 3,some 4,some 0]] = (rma 2).stream [some 1,some 3,some 4,some 0] ∧
      (rma 2).stream [some 1,some 3,some 4,some 0] = .ok [none,some 2,some 3,some (3 / 2)] := by
  have made : newRMA 2 = .ok (rma 2) := rfl
  have computed : rmaBatch [some 1,some 3,some 4,some 0] 2 = .ok [none,some 2,some 3,some (3 / 2)] := by decide +kernel
  have faithful := (stream_equals_batch ⟨fun _ _ => none,fun _ => none,fun _ => none,fun _ => none,fun _ => ""⟩).1 2 (rma 2) made
  exact ⟨made,computed,faithful.resumed [[some 1],[some 3,some 4,some 0]],(faithful.batched _ _).mp computed⟩

/-- Values in another unit. -/
def rescale (a : ℚ) (xs : Series) : Series := xs.map (·.map (a * ·))

theorem Operator.stream_rescale {S : Type} {op : Operator S} {a : ℚ} (f : S → S) (fresh : f op.fresh = op.fresh)
    (steps : ∀ s x, op.step (f s) (a * x) = f (op.step s x)) (ready : ∀ s, op.ready (f s) = op.ready s)
    (value : ∀ s, op.value (f s) = a * op.value s) (xs : Series) : op.stream (rescale a xs) = (op.stream xs).map (rescale a) := by
  have updates (s : S) (x : Value) : settled (op.update (f s) (x.map (a * ·))) = (settled (op.update s x)).map f := by
    cases x with
    | none => rfl
    | some x => exact congrArg Except.ok (steps s x)
  have outputs (s : S) : op.output (f s) = (op.output s).map (a * ·) := by
    rw [output_eq,output_eq,ready,value]
    split <;> rfl
  have fed : feed (fun s x => settled (op.update s x)) op.output (f op.fresh) (rescale a xs) = _ := feed_map updates outputs op.fresh xs
  rw [fresh] at fed
  rw [stream,stream,fed]
  cases feed (fun s x => settled (op.update s x)) op.output op.fresh xs <;> rfl

/-- The indicators of prices in another unit, or adjusted by a factor, are the indicators in that unit. -/
theorem streams_rescaled (m : Numerics) (a : ℚ) (xs : Series) :
    (∀ n, (rma n).stream (rescale a xs) = ((rma n).stream xs).map (rescale a)) ∧
      (∀ alpha, (ewma m alpha).stream (rescale a xs) = ((ewma m alpha).stream xs).map (rescale a)) ∧
        ∀ q r, (kalman q r).stream (rescale a xs) = ((kalman q r).stream xs).map (rescale a) := by
  refine ⟨fun n => ?_,fun alpha => ?_,fun q r => ?_⟩
  · refine Operator.stream_rescale (fun c => { c with sum := a * c.sum, prev := a * c.prev }) (by simp [rma]) ?_ (fun _ => rfl)
      (fun _ => rfl) xs
    intro c x
    simp only [rma,RmaCore.step]
    split_ifs <;> ring_nf
  · refine Operator.stream_rescale (fun c => { c with prev := a * c.prev }) (by simp [ewma]) ?_ (fun _ => rfl) (fun _ => rfl) xs
    intro c x
    simp only [ewma,EwmaCore.step]
    split_ifs <;> ring_nf
  · refine Operator.stream_rescale (fun c => { c with x := a * c.x }) (by simp [kalman]) ?_ (fun _ => rfl) (fun _ => rfl) xs
    intro c z
    simp only [kalman,KalmanCore.step]
    split_ifs <;> ring_nf

end Indicator
end QuantTrading
