import Mathlib.Algebra.Group.Prod
import Mathlib.Data.List.Induction
import Mathlib.Data.List.Sort
import QuantTrading.Domain
import QuantTrading.Library.Grouping

/-! Aggregation of one-minute bars into bars of fifteen minutes or of a day. A bar joins the bucket
of its symbol and stamp; auction stamps join the first bucket of the morning, the closing stamps
the last bucket before them. An aggregated bar carries the moment from which it may be seen.
-/
namespace QuantTrading
open Library List

namespace Marketdata

inductive Frequency where
  | m1 | m15 | d1
  | other (name : String)
deriving DecidableEq

structure Bar where
  symbol : String
  date : Time
  (openPrice high low close volume turnover : ℚ)
  frequency : Frequency
  visibleAt : Time
deriving DecidableEq

inductive AggregateError where
  | unsupportedTarget (target : Frequency)
  | wrongFrequency (index : Nat) (symbol : String) (date : Time) (frequency : Frequency)
  | beforeAuction (stamp : Time)
  | lunchBreak (stamp : Time)
  | afterClose (stamp : Time)
deriving DecidableEq

def minuteNs : Int := 60 * 1000000000

def auctionOpenMin : Int := 9 * 60 + 15
def morningOpenMin : Int := 9 * 60 + 30
def morningCloseMin : Int := 11 * 60 + 30
def afternoonOpenMin : Int := 13 * 60
def afternoonCloseMin : Int := 15 * 60
def bucketMinutes : Int := 15

def inShanghai (t : Time) : Time := t + 8 * 60 * minuteNs

def clock (t : Time) : Int := inShanghai t % Time.dayNs

/-- `Hour()*60 + Minute()`. -/
def hourMinute (t : Time) : Int := clock t / minuteNs

/-- `Second() == 0 && Nanosecond() == 0`. -/
def OnTheMinute (t : Time) : Prop := clock t % minuteNs = 0

instance (t : Time) : Decidable (OnTheMinute t) := inferInstanceAs (Decidable (_ = _))

def dailyVisibleAt (tradeDate : Time) : Time := tradeDate.truncateDay + 15 * 60 * minuteNs - 8 * 60 * minuteNs

def intradayVisibleAt (barStart : Time) (minutes : Int) : Time := barStart + minutes * minuteNs

variable (target : Frequency) (b : Bar)

def Bar.visibleBy (asOf : Time) : Bool := !b.visibleAt.isZero && decide (b.visibleAt ≤ asOf)

def checkInSession (t : Time) : Except AggregateError Unit :=
  let hm := hourMinute t
  if hm < auctionOpenMin then .error (.beforeAuction t)
  else if hm < morningCloseMin then .ok ()
  else if hm = morningCloseMin then if OnTheMinute t then .ok () else .error (.lunchBreak t)
  else if hm < afternoonOpenMin then .error (.lunchBreak t)
  else if hm < afternoonCloseMin then .ok ()
  else if hm = afternoonCloseMin then if OnTheMinute t then .ok () else .error (.afterClose t)
  else .error (.afterClose t)

def startMin (hm : Int) : Int :=
  if hm < morningOpenMin then morningOpenMin
  else if hm < morningCloseMin then morningOpenMin + (hm - morningOpenMin) / bucketMinutes * bucketMinutes
  else if hm = morningCloseMin then morningCloseMin - bucketMinutes
  else if hm < afternoonCloseMin then afternoonOpenMin + (hm - afternoonOpenMin) / bucketMinutes * bucketMinutes
  else afternoonCloseMin - bucketMinutes

def bucketStart15m (t : Time) : Except AggregateError Time := do
  checkInSession t
  let day := (inShanghai t).truncateDay - 8 * 60 * minuteNs
  return day + startMin (hourMinute t) * minuteNs

def bucketStartDaily (t : Time) : Except AggregateError Time := do
  checkInSession t
  return (inShanghai t).truncateDay

def bucketStart (t : Time) : Except AggregateError Time :=
  if target = .m15 then bucketStart15m t else bucketStartDaily t

def bucketVisibleAt (start : Time) : Time :=
  if target = .m15 then intradayVisibleAt start bucketMinutes else dailyVisibleAt start

structure Acc where
  (openPrice close high low volume turnover : ℚ)
  count : Nat

namespace Acc

def first (b : Bar) : Acc := ⟨b.openPrice,b.close,b.high,b.low,b.volume,b.turnover,1⟩

def add (a : Acc) (b : Bar) : Acc :=
  { a with
    close := b.close
    high := if b.high > a.high then b.high else a.high
    low := if b.low < a.low then b.low else a.low
    volume := a.volume + b.volume
    turnover := a.turnover + b.turnover
    count := a.count + 1 }

def bar (target : Frequency) (symbol : String) (start : Time) (a : Acc) : Bar :=
  ⟨symbol,start,a.openPrice,a.high,a.low,a.close,a.volume,a.turnover,target,bucketVisibleAt target start⟩

end Acc

def Earlier (a b : Bar) : Prop := a.symbol < b.symbol ∨ a.symbol = b.symbol ∧ a.date ≤ b.date

instance (a b : Bar) : Decidable (Earlier a b) := inferInstanceAs (Decidable (_ ∨ _))

def bucketKey : Except AggregateError (String × Time) :=
  (bucketStart target b.date).map (b.symbol,·)

def aggregate (bars : List Bar) (target : Frequency) : Except AggregateError (List Bar) :=
  if target ≠ .m15 ∧ target ≠ .d1 then .error (.unsupportedTarget target)
  else
    match bars.zipIdx.find? (·.1.frequency ≠ .m1) with
    | some (b,index) => .error (.wrongFrequency index b.symbol b.date b.frequency)
    | none =>
      if bars = [] then .ok []
      else do
        let buckets ← group Acc.first Acc.add (bucketKey target) (bars.insertionSort Earlier)
        return (buckets.map fun bucket => bucket.2.bar target bucket.1.1 bucket.1.2).insertionSort Earlier

def Constituent (bar : Bar) : Prop := b.symbol = bar.symbol ∧ bucketStart target b.date = .ok bar.date

/-- The stamps in session: from the auction to the morning's close, and from the afternoon's opening
to the close, both closing stamps included. -/
def InSession (c : Int) : Prop :=
  auctionOpenMin * minuteNs ≤ c ∧ c ≤ morningCloseMin * minuteNs ∨ afternoonOpenMin * minuteNs ≤ c ∧ c ≤ afternoonCloseMin * minuteNs

theorem inSession_of_ok {t : Time} (ok : checkInSession t = .ok ()) : InSession (clock t) := by
  unfold checkInSession hourMinute at ok
  unfold InSession
  dsimp only at ok
  split_ifs at ok <;>
    simp only [OnTheMinute,auctionOpenMin,morningCloseMin,afternoonOpenMin,afternoonCloseMin,minuteNs] at * <;> omega

/-- A closing stamp is not in its bucket, and a stamp in the last minute of its bucket is of a bar
that ends after it. The auction before the opening ends in time. -/
def InTime (t : Time) : Prop :=
  if target = .m15 then
    clock t < morningOpenMin * minuteNs ∨ clock t % (bucketMinutes * minuteNs) ≤ (bucketMinutes - 1) * minuteNs ∧
      clock t ≠ morningCloseMin * minuteNs ∧ clock t ≠ afternoonCloseMin * minuteNs
  else clock t ≤ (afternoonCloseMin - 1) * minuteNs

instance (target : Frequency) (t : Time) : Decidable (InTime target t) := by
  unfold InTime
  infer_instance

theorem startMin_dominates_iff {c : Int} (inside : InSession c) :
    c + minuteNs ≤ (startMin (c / minuteNs) + bucketMinutes) * minuteNs ↔
      c < morningOpenMin * minuteNs ∨ c % (bucketMinutes * minuteNs) ≤ (bucketMinutes - 1) * minuteNs ∧
        c ≠ morningCloseMin * minuteNs ∧ c ≠ afternoonCloseMin * minuteNs := by
  unfold startMin
  unfold InSession at inside
  split_ifs <;>
    simp only [auctionOpenMin,morningOpenMin,morningCloseMin,afternoonOpenMin,afternoonCloseMin,bucketMinutes,minuteNs] at * <;>
    omega

theorem bucketStart15m_eq_ok {t start : Time} (found : bucketStart15m t = .ok start) :
    InSession (clock t) ∧ start = t - clock t + startMin (clock t / minuteNs) * minuteNs := by
  obtain ⟨_,inside,same⟩ := bind_eq_ok.mp found
  refine ⟨inSession_of_ok inside,?_⟩
  rw [pure_eq_ok] at same
  rw [← same,hourMinute]
  change inShanghai t - clock t - 8 * 60 * minuteNs + _ = _
  rw [inShanghai]
  ring

theorem bucketStartDaily_eq_ok {t start : Time} (found : bucketStartDaily t = .ok start) :
    InSession (clock t) ∧ start = t + 8 * 60 * minuteNs - clock t := by
  obtain ⟨_,inside,same⟩ := bind_eq_ok.mp found
  exact ⟨inSession_of_ok inside,(pure_eq_ok.mp same).symm⟩

variable {target : Frequency} {b : Bar} {bars : List Bar}

/-- Whether a bucket is visible no earlier than a minute bar in it depends on the stamp alone. -/
theorem bucketVisibleAt_iff {t start : Time} (found : bucketStart target t = .ok start) :
    intradayVisibleAt t 1 ≤ bucketVisibleAt target start ↔ InTime target t := by
  unfold bucketStart at found
  unfold bucketVisibleAt InTime
  by_cases short : target = .m15
  · rw [if_pos short] at found ⊢
    obtain ⟨inside,rfl⟩ := bucketStart15m_eq_ok found
    rw [if_pos short,← startMin_dominates_iff inside,intradayVisibleAt,intradayVisibleAt]
    constructor <;> intro le <;> linarith
  · rw [if_neg short] at found ⊢
    obtain ⟨inside,start_⟩ := bucketStartDaily_eq_ok found
    have midnight : start.truncateDay = start := by
      rw [start_]
      change inShanghai t - inShanghai t % Time.dayNs - (inShanghai t - inShanghai t % Time.dayNs) % Time.dayNs = _
      rw [Int.sub_emod,Int.emod_emod,sub_self]
      exact sub_zero _
    rw [if_neg short,dailyVisibleAt,midnight,start_,intradayVisibleAt]
    simp only [afternoonCloseMin]
    constructor <;> intro le <;> linarith

theorem bucketKey_eq_some {symbol : String} {start : Time} :
    (bucketKey target b).toOption = some (symbol,start) ↔ b.symbol = symbol ∧ bucketStart target b.date = .ok start := by
  unfold bucketKey
  cases bucketStart target b.date with
  | _ => simp [Except.map,Except.toOption]

variable {out : List Bar}

theorem aggregate_eq_ok (accepted : aggregate bars target = .ok out) :
    ∃ buckets, Grouped Acc.first Acc.add (bucketKey target) (bars.insertionSort Earlier) buckets ∧
      out = (buckets.map fun bucket => bucket.2.bar target bucket.1.1 bucket.1.2).insertionSort Earlier := by
  unfold aggregate at accepted
  iterate 2 (split at accepted; · cases accepted)
  split at accepted
  · rename_i none_
    subst none_
    cases accepted
    exact ⟨[],group_grouped rfl,rfl⟩
  · obtain ⟨buckets,grouped,same⟩ := bind_eq_ok.mp accepted
    exact ⟨buckets,group_grouped grouped,(pure_eq_ok.mp same).symm⟩

def constituents (target : Frequency) (bars : List Bar) (symbol : String) (start : Time) : List Bar :=
  (bars.insertionSort Earlier).filter fun b => (bucketKey target b).toOption = some (symbol,start)

theorem mem_aggregate (accepted : aggregate bars target = .ok out) (bar : Bar) :
    bar ∈ out ↔ ∃ acc, accumulate Acc.first Acc.add (constituents target bars bar.symbol bar.date) = some acc ∧
      bar = acc.bar target bar.symbol bar.date := by
  obtain ⟨buckets,grouped,rfl⟩ := aggregate_eq_ok accepted
  rw [mem_insertionSort,mem_map]
  constructor
  · rintro ⟨⟨⟨symbol,start⟩,acc⟩,listed,rfl⟩
    exact ⟨acc,(grouped.mem _ _).mp listed,rfl⟩
  · rintro ⟨acc,held,same⟩
    exact ⟨((bar.symbol,bar.date),acc),(grouped.mem _ _).mpr held,same.symm⟩

/-- Open is the first bar's, close the last one's, high and low are the extremes, the amounts add up. -/
structure Summary (cs : List Bar) (bar : Bar) : Prop where
  openPrice : cs.head?.map Bar.openPrice = some bar.openPrice
  close : cs.getLast?.map Bar.close = some bar.close
  high : bar.high ∈ cs.map Bar.high ∧ ∀ b ∈ cs, b.high ≤ bar.high
  low : bar.low ∈ cs.map Bar.low ∧ ∀ b ∈ cs, bar.low ≤ b.low
  volume : bar.volume = (cs.map Bar.volume).sum
  turnover : bar.turnover = (cs.map Bar.turnover).sum

theorem Acc.high_add (a : Acc) (b : Bar) : (a.add b).high = max a.high b.high := by
  rw [Acc.add,max_def']
  simp only [gt_iff_lt,← not_le,ite_not]

theorem Acc.low_add (a : Acc) (b : Bar) : (a.add b).low = min a.low b.low := by
  rw [Acc.add,min_def]
  simp only [← not_le,ite_not]

section
variable (target : Frequency) (symbol : String) (start : Time)

theorem Summary.first (b : Bar) : Summary [b] ((Acc.first b).bar target symbol start) where
  openPrice := rfl
  close := rfl
  high := by simp [Acc.bar,Acc.first]
  low := by simp [Acc.bar,Acc.first]
  volume := by simp [Acc.bar,Acc.first]
  turnover := by simp [Acc.bar,Acc.first]

variable {target symbol start}

variable {cs : List Bar} {acc : Acc}

theorem greatest_concat {α : Type} [LinearOrder α] {f : Bar → α} {top : α}
    (greatest : top ∈ cs.map f ∧ ∀ c ∈ cs, f c ≤ top) (b : Bar) :
    max top (f b) ∈ (cs ++ [b]).map f ∧ ∀ c ∈ cs ++ [b], f c ≤ max top (f b) := by
  obtain ⟨reached,bound⟩ := greatest
  rw [map_append]
  constructor
  · rcases max_choice top (f b) with old | new
    · rw [old]
      exact mem_append_left _ reached
    · rw [new]
      exact mem_append_right _ (mem_singleton_self _)
  · intro c listed
    rcases mem_append.mp listed with old | new
    · exact le_max_of_le_left (bound c old)
    · rw [mem_singleton.mp new]
      exact le_max_right ..

theorem Summary.add (summary : Summary cs (acc.bar target symbol start)) (b : Bar) :
    Summary (cs ++ [b]) ((acc.add b).bar target symbol start) where
  openPrice := by
    cases cs with
    | nil => cases summary.openPrice
    | cons => exact summary.openPrice
  close := by
    rw [getLast?_concat]
    rfl
  high := by
    change (acc.add b).high ∈ _ ∧ ∀ c ∈ cs ++ [b], Bar.high c ≤ (acc.add b).high
    rw [Acc.high_add]
    exact greatest_concat summary.high b
  low := by
    change (acc.add b).low ∈ _ ∧ ∀ c ∈ cs ++ [b], (acc.add b).low ≤ Bar.low c
    rw [Acc.low_add]
    exact greatest_concat (α := ℚᵒᵈ) summary.low b
  volume := by
    rw [map_append,sum_append,← summary.volume]
    simp [Acc.bar,Acc.add]
  turnover := by
    rw [map_append,sum_append,← summary.turnover]
    simp [Acc.bar,Acc.add]

variable (target symbol start)

theorem accumulate_summary (held : accumulate Acc.first Acc.add cs = some acc) :
    Summary cs (acc.bar target symbol start) := by
  induction cs using reverseRecOn generalizing acc with
  | nil => cases held
  | append_singleton cs b ih =>
    rw [accumulate_concat] at held
    cases earlier : accumulate Acc.first Acc.add cs with
    | none =>
      cases cs with
      | cons => cases earlier
      | nil =>
        rw [earlier] at held
        cases held
        exact Summary.first target symbol start b
    | some =>
      rw [earlier] at held
      cases held
      exact (ih earlier).add b

end

/-- A bar of the result says of the bars of its bucket what a bar says of its trades. -/
theorem aggregate_summary (accepted : aggregate bars target = .ok out) {bar : Bar}
    (listed : bar ∈ out) : Summary (constituents target bars bar.symbol bar.date) bar := by
  obtain ⟨acc,held,same⟩ := (mem_aggregate accepted bar).mp listed
  exact same ▸ accumulate_summary target bar.symbol bar.date held

/-- Minutes of a morning, each traded at one more than the minute before. -/
def minuteAt (stamp : Int) : Bar :=
  let first : ℚ := stamp - 80
  ⟨"600000.SH",Time.date 2024 3 4 + stamp * minuteNs,first,first + 2,first - 1,first + 1,100,1000,.m1,0⟩

theorem firstMinutes_summarised : let bar : Bar := ⟨"600000.SH",(minuteAt 90).date,10,13,9,12,200,2000,.m15,(minuteAt 105).date⟩
    aggregate [minuteAt 91,minuteAt 90] .m15 = .ok [bar] ∧
      Summary (constituents .m15 [minuteAt 91,minuteAt 90] "600000.SH" bar.date) bar := by
  intro bar
  have accepted : aggregate [minuteAt 91,minuteAt 90] .m15 = .ok [bar] := by decide +kernel
  exact ⟨accepted,aggregate_summary accepted (mem_singleton_self bar)⟩

def traded (bars : List Bar) : ℚ × ℚ := (bars.map fun b => (b.volume,b.turnover)).sum

/-- Aggregation neither loses nor repeats volume or turnover. -/
theorem aggregate_conserves (accepted : aggregate bars target = .ok out) : traded out = traded bars := by
  have sorted (xs : List Bar) : traded (xs.insertionSort Earlier) = traded xs := by
    unfold traded
    exact ((perm_insertionSort Earlier xs).map _).sum_eq
  unfold aggregate at accepted
  iterate 2 (split at accepted; · cases accepted)
  split at accepted
  next none_ =>
    cases accepted
    rw [none_]
  obtain ⟨buckets,grouped,same⟩ := bind_eq_ok.mp accepted
  cases pure_eq_ok.mp same
  have total := sum_group (fun acc : Acc => (acc.volume,acc.turnover)) (fun b => (b.volume,b.turnover)) (fun _ => rfl) (fun _ _ => rfl) grouped
  rw [sorted,traded,map_map,← sorted]
  exact total

theorem firstMinutes_conserved : ∃ out, aggregate [minuteAt 91,minuteAt 90] .m15 = .ok out ∧ out.length = 1 ∧ traded out = (200,2000) := by
  have bucket : (aggregate [minuteAt 91,minuteAt 90] .m15).map length = .ok 1 := by decide +kernel
  obtain ⟨out,accepted,length⟩ := map_eq_ok.mp bucket
  have total : traded [minuteAt 91,minuteAt 90] = (200,2000) := by decide +kernel
  exact ⟨out,accepted,length,total ▸ aggregate_conserves accepted⟩

def NeverEarly (target : Frequency) (bars out : List Bar) : Prop :=
  ∀ bar ∈ out, ∀ b ∈ bars, Constituent target b bar → intradayVisibleAt b.date 1 ≤ bar.visibleAt ∧
    ∀ asOf, bar.visibleBy asOf = true → intradayVisibleAt b.date 1 ≤ asOf

theorem exists_aggregated (accepted : aggregate bars target = .ok out)
    (listed : b ∈ bars) : ∃ bar ∈ out, Constituent target b bar := by
  obtain ⟨buckets,grouped,_⟩ := aggregate_eq_ok accepted
  obtain ⟨key,found⟩ := grouped.keyed b ((mem_insertionSort ..).mpr listed)
  obtain ⟨start,bucket,rfl⟩ := map_eq_ok.mp found
  have inside : b ∈ constituents target bars b.symbol start := by
    rw [constituents,mem_filter,mem_insertionSort,decide_eq_true_iff,bucketKey_eq_some]
    exact ⟨listed,rfl,bucket⟩
  cases cs : constituents target bars b.symbol start with
  | nil =>
    rw [cs] at inside
    cases inside
  | cons first rest =>
    refine ⟨(rest.foldl Acc.add (Acc.first first)).bar target b.symbol start,?_,rfl,bucket⟩
    refine (mem_aggregate accepted _).mpr ⟨rest.foldl Acc.add (Acc.first first),?_,rfl⟩
    change accumulate Acc.first Acc.add (constituents target bars b.symbol start) = _
    rw [cs]
    rfl

theorem visibleAt_aggregated (accepted : aggregate bars target = .ok out)
    {bar : Bar} (made : bar ∈ out) : bar.visibleAt = bucketVisibleAt target bar.date := by
  obtain ⟨acc,_,same⟩ := (mem_aggregate accepted bar).mp made
  rw [same]
  rfl

/-- An aggregated bar is visible no earlier than its constituents exactly when each of them is in
time. -/
theorem never_early_iff {bars out : List Bar} {target : Frequency} (accepted : aggregate bars target = .ok out) :
    NeverEarly target bars out ↔ ∀ b ∈ bars, InTime target b.date := by
  constructor
  · intro timely b listed
    obtain ⟨bar,made,constituent⟩ := exists_aggregated accepted listed
    refine (bucketVisibleAt_iff constituent.2).mp ?_
    rw [← visibleAt_aggregated accepted made]
    exact (timely bar made b listed constituent).1
  · intro inTime bar made b listed constituent
    have complete : intradayVisibleAt b.date 1 ≤ bar.visibleAt := by
      rw [visibleAt_aggregated accepted made]
      exact (bucketVisibleAt_iff constituent.2).mpr (inTime b listed)
    refine ⟨complete,fun asOf seen => ?_⟩
    rw [Bar.visibleBy,Bool.and_eq_true,decide_eq_true_iff] at seen
    exact complete.trans seen.2

/-- Two minutes of the morning, in one bucket. -/
theorem morning_never_early :
    let minute (stamp : Int) : Bar := ⟨"600000.SH",Time.date 2024 3 4 + stamp * minuteNs,10,11,9,10,100,1000,.m1,0⟩
    ∃ out, aggregate [minute 90,minute 91] .m15 = .ok out ∧ out.length = 1 ∧ NeverEarly .m15 [minute 90,minute 91] out := by
  intro minute
  have bucket : (aggregate [minute 90,minute 91] .m15).map length = .ok 1 := by decide +kernel
  obtain ⟨out,accepted,length⟩ := map_eq_ok.mp bucket
  exact ⟨out,accepted,length,(never_early_iff accepted).mpr (by decide +kernel)⟩

/-- The closing stamp is of a minute that ends at 15:01; its bucket and its day are visible from
15:00 on. -/
theorem closing_stamp_early :
    let close : Bar := ⟨"600000.SH",Time.date 2024 3 4 + 7 * 60 * minuteNs,10,11,9,10,100,1000,.m1,0⟩
    let quarter := (Acc.first close).bar .m15 "600000.SH" (close.date - 15 * minuteNs)
    let day := (Acc.first close).bar .d1 "600000.SH" (Time.date 2024 3 4)
    (aggregate [close] .m15 = .ok [quarter] ∧ quarter.visibleBy close.date = true ∧ ¬ NeverEarly .m15 [close] [quarter]) ∧
      aggregate [close] .d1 = .ok [day] ∧ day.visibleBy close.date = true ∧ ¬ NeverEarly .d1 [close] [day] := by
  intro close quarter day
  refine ⟨⟨by decide +kernel,by decide +kernel,fun timely => ?_⟩,by decide +kernel,by decide +kernel,fun timely => ?_⟩
  · have early := (timely quarter (mem_singleton_self _) close (mem_singleton_self _) ⟨rfl,by decide +kernel⟩).1
    exact absurd early (by decide +kernel)
  · have early := (timely day (mem_singleton_self _) close (mem_singleton_self _) ⟨rfl,by decide +kernel⟩).1
    exact absurd early (by decide +kernel)

end Marketdata
end QuantTrading
