import HttpBinding.Proofs.Number.Monotone
import HttpBinding.Proofs.Retryer.Decision

/-!
# The decisions of a policy, one after another

A policy is asked once for every attempt that failed. As long as it has attempts left it names
a wait between nothing and its cap, and then it hands every fault back. The waits after faults
that name no moment do not decrease, and the policy keeps count of the waits it has named. All
this holds however many attempts are allowed, but for one thing: the power that a wait grows
with is computed before it is capped, and after a great many attempts there is none.
-/

namespace HttpBinding

/-- What a policy is asked: the time of day, and the fault that an attempt ended with. -/
structure Question where
  now : Moment
  fault : Fault

/-- The clock of the time of day is known, and so is that of the moment that the fault may name. -/
structure Question.IsTimely (question : Question) : Prop where
  now : question.now.IsAware
  fault : question.fault.IsTimely

namespace Backoff

/-- The decisions on one question after another, and the policy after them. -/
def answerAll (b : Backoff) : List Question → List (Except Fault Quantity) × Backoff
  | [] => ([], b)
  | question :: rest =>
    let (decision, b) := b.next question.now question.fault
    let (decisions, b) := b.answerAll rest
    (decision :: decisions, b)

/-! ## Time slept -/

/-- The waits among decisions. -/
def waitsOf (decisions : List (Except Fault Quantity)) : List Quantity :=
  decisions.filterMap fun
    | .ok wait => some wait
    | .error _ => none

/-- Waits added to a time, one after another. -/
def addWaits (slept : Binary64) (waits : List Quantity) : Binary64 :=
  waits.foldl (fun slept wait => slept.add (wait.toReal?.getD .nan)) slept

theorem sleptFor_next {b b' : Backoff} {now : Moment} {fault : Fault}
    {decision : Except Fault Quantity} (hnext : b.next now fault = (decision, b')) :
    b'.sleptFor = addWaits b.sleptFor (waitsOf [decision]) := by
  unfold next at hnext
  split at hnext
  · obtain ⟨rfl, rfl⟩ := Prod.mk.inj hnext
    rfl
  · split at hnext
    next wait hwait =>
      split at hnext
      next waited hwaited =>
        obtain ⟨rfl, rfl⟩ := Prod.mk.inj hnext
        unfold waiting realOf at hwaited
        cases hreal : wait.toReal? with
        | none =>
            rw [hreal] at hwaited
            cases hwaited
        | some seconds =>
            rw [hreal] at hwaited
            rw [← Except.ok.inj hwaited]
            simp [addWaits, waitsOf, hreal, advanced]
      next =>
        obtain ⟨rfl, rfl⟩ := Prod.mk.inj hnext
        rfl
    next =>
      obtain ⟨rfl, rfl⟩ := Prod.mk.inj hnext
      rfl

/-- A policy of any kind has slept for the sum of the waits it has named. -/
theorem sleptFor_answerAll (b : Backoff) (questions : List Question) :
    (b.answerAll questions).2.sleptFor = addWaits b.sleptFor (waitsOf (b.answerAll questions).1) := by
  induction questions generalizing b with
  | nil => rfl
  | cons question rest ih =>
      rcases hnext : b.next question.now question.fault with ⟨decision, b'⟩
      have hstep := sleptFor_next hnext
      unfold answerAll
      rw [hnext]
      dsimp only
      rw [ih b', hstep]
      unfold addWaits waitsOf
      rw [← List.foldl_append, ← List.filterMap_append, List.singleton_append]

/-! ## One decision -/

/-- A policy for a number of attempts whose period, in seconds, and cap are not negative. -/
structure IsGrowing (b : Backoff) (period : Binary64) (cap : Quantity) (m : Nat) : Prop where
  period_eq : ∃ q, b.period.quantity? = some q ∧ q.toReal? = some period
  period_nonneg : ∃ rank, period.rank? = some rank ∧ 0 ≤ rank
  cap_eq : b.maxPeriod.quantity? = some cap
  cap_isReal : cap.IsReal
  cap_nonneg : (Quantity.whole 0).le cap = true
  maxAttempts_eq : b.maxAttempts = .whole m

/-- The wait after a fault that names no moment, when an attempt failed as number `call`. -/
def grownWait (period : Binary64) (cap : Quantity) (call : Nat) : Except Fault Quantity :=
  (Binary64.powThreeHalves? call).elim (.error (.runtime "OverflowError")) fun growth =>
    .ok ((Quantity.real (period.mul growth)).least cap)

/-- The wait until a moment. -/
def namedWait (cap : Quantity) (now moment : Moment) : Except Fault Quantity := do
  let seconds ← secondsUntil now moment
  .ok ((Quantity.real (.zeroOf false)).greatest ((Quantity.real seconds).least cap))

/-- The decision when an attempt failed as number `call`. -/
def decisionAt (period : Binary64) (cap : Quantity) (m call : Nat) (question : Question) :
    Except Fault Quantity :=
  if m ≤ call then .error question.fault
  else
    match question.fault.retryAfter with
    | some moment => namedWait cap question.now moment
    | none => grownWait period cap call

variable {b : Backoff} {period : Binary64} {cap wait wait' : Quantity} {m call call' : Nat}
  {question : Question}

theorem IsGrowing.nextInterval_eq (hgrowing : b.IsGrowing period cap m) :
    b.nextInterval = grownWait period cap (b.attempt - 1) := by
  obtain ⟨q, hq, hreal⟩ := hgrowing.period_eq
  unfold nextInterval growth grownWait
  rw [numberOf_of_quantity? hgrowing.cap_eq, numberOf_of_quantity? hq]
  cases Binary64.powThreeHalves? (b.attempt - 1) with
  | none => rfl
  | some growth =>
      rw [Option.elim_some, Option.elim_some]
      change (realOf q).bind _ = _
      rw [realOf_of_toReal? hreal]
      rfl

theorem IsGrowing.interval_eq (hgrowing : b.IsGrowing period cap m) (now : Moment) (fault : Fault) :
    b.interval now fault =
      match fault.retryAfter with
      | some moment => namedWait cap now moment
      | none => grownWait period cap (b.attempt - 1) := by
  unfold interval namedWait
  rw [numberOf_of_quantity? hgrowing.cap_eq, hgrowing.nextInterval_eq]
  cases fault.retryAfter with
  | none => rfl
  | some moment =>
      dsimp only
      cases secondsUntil now moment <;> rfl

/-! ### Bounds -/

theorem IsGrowing.exists_top (hgrowing : b.IsGrowing period cap m) :
    ∃ top, cap.place? = some top ∧ Quantity.placeOfWhole 0 ≤ top :=
  Quantity.exists_place_of_le (a := .whole 0) rfl hgrowing.cap_nonneg

/-- A wait that is named lies between nothing and the cap. -/
theorem namedWait_eq_ok (hgrowing : b.IsGrowing period cap m) (htimely : question.IsTimely)
    {moment : Moment} (hmoment : question.fault.retryAfter = some moment) :
    ∃ wait, namedWait cap question.now moment = .ok wait ∧ wait.IsReal ∧
      (Quantity.whole 0).le wait = true ∧ wait.le cap = true := by
  obtain ⟨top, htop, hnonneg⟩ := hgrowing.exists_top
  obtain ⟨micros, hseconds⟩ := secondsUntil_eq_ok htimely.now (htimely.fault moment hmoment)
  obtain ⟨place, hplace⟩ : ∃ place, (Quantity.real (.ofQuotient micros 1000000)).place? = some place :=
    ⟨_, rfl⟩
  have hzero : (Quantity.real (.zeroOf false)).place? = some (Quantity.placeOfWhole 0) :=
    congrArg some Quantity.placeAt_zero
  have hwait := Quantity.place?_greatest hzero (Quantity.place?_least hplace htop)
  refine ⟨_, ?_, ?_, (Quantity.le_iff rfl hwait).mpr (le_max_left _ _),
    (Quantity.le_iff hwait htop).mpr (max_le hnonneg (min_le_right _ _))⟩
  · unfold namedWait
    rw [hseconds]
    rfl
  · exact Quantity.isReal_greatest (Quantity.isReal_real _)
      (Quantity.isReal_least (Quantity.isReal_real _) hgrowing.cap_isReal)

/-- Where a wait stands that grows with the number of attempts, as far as there is a power for it. -/
def grownPlace (rank : Int) (top : NumberPlace) (call : Nat) : NumberPlace :=
  min (Binary64.placeAt (Binary64.productCode rank.natAbs (Binary64.growthCode call))) top

theorem grownPlace_mono (rank : Int) (top : NumberPlace) : Monotone (grownPlace rank top) := by
  intro call call' hle
  have hcode := Binary64.productCode_mono rank.natAbs (Binary64.growthCode_mono hle)
  have hhigh := Binary64.productCode_le rank.natAbs (Binary64.growthCode call')
  refine min_le_min_right top (Binary64.placeAt_le (by omega) ?_ (Int.ofNat_le.mpr hhigh))
  exact Int.ofNat_le.mpr hcode

theorem le_grownPlace {top : NumberPlace} (htop : Quantity.placeOfWhole 0 ≤ top) (rank : Int) (call : Nat) :
    Quantity.placeOfWhole 0 ≤ grownPlace rank top call := by
  have hhigh := Binary64.productCode_le rank.natAbs (Binary64.growthCode call)
  refine le_min ?_ htop
  rw [← Quantity.placeAt_zero]
  exact Binary64.placeAt_le (by omega) (Int.natCast_nonneg _) (Int.ofNat_le.mpr hhigh)

theorem place?_of_grownWait {rank : Int} {top : NumberPlace} (hrank : period.rank? = some rank)
    (hnonneg : 0 ≤ rank) (htop : cap.place? = some top) (hwait : grownWait period cap call = .ok wait) :
    wait.place? = some (grownPlace rank top call) := by
  unfold grownWait at hwait
  cases hpower : Binary64.powThreeHalves? call with
  | none =>
      rw [hpower] at hwait
      cases hwait
  | some growth =>
      rw [hpower, Option.elim_some] at hwait
      have hproduct : (Quantity.real (period.mul growth)).place? =
          some (Binary64.placeAt (Binary64.productCode rank.natAbs (Binary64.growthCode call))) := by
        rw [Quantity.place?, Binary64.rank?_mul_growth hrank hnonneg hpower]
        rfl
      rw [← Except.ok.inj hwait]
      exact Quantity.place?_least hproduct htop

/-- A wait that grows lies between nothing and the cap, as long as there is a power for it. -/
theorem grownWait_eq_ok (hgrowing : b.IsGrowing period cap m) (hcall : call ≤ Binary64.lastGrowth) :
    ∃ wait, grownWait period cap call = .ok wait ∧ wait.IsReal ∧
      (Quantity.whole 0).le wait = true ∧ wait.le cap = true := by
  obtain ⟨top, htop, hnonneg⟩ := hgrowing.exists_top
  obtain ⟨rank, hrank, hpositive⟩ := hgrowing.period_nonneg
  obtain ⟨growth, hgrowth⟩ :=
    Option.isSome_iff_exists.mp ((Binary64.powThreeHalves?_isSome_iff call).mpr hcall)
  have hwait : grownWait period cap call = .ok ((Quantity.real (period.mul growth)).least cap) := by
    unfold grownWait
    rw [hgrowth, Option.elim_some]
  have hplace := place?_of_grownWait hrank hpositive htop hwait
  exact ⟨_, hwait, Quantity.isReal_least (Quantity.isReal_real _) hgrowing.cap_isReal,
    (Quantity.le_iff rfl hplace).mpr (le_grownPlace hnonneg rank call),
    (Quantity.le_iff hplace htop).mpr (min_le_right _ _)⟩

theorem grownWait_eq_error (period : Binary64) (cap : Quantity) (hcall : Binary64.lastGrowth < call) :
    grownWait period cap call = .error (.runtime "OverflowError") := by
  have hnone : Binary64.powThreeHalves? call = none := by
    rw [← Option.not_isSome_iff_eq_none, Binary64.powThreeHalves?_isSome_iff]
    omega
  unfold grownWait
  rw [hnone, Option.elim_none]

/-- A wait does not get smaller when more attempts have failed. -/
theorem grownWait_le (hgrowing : b.IsGrowing period cap m) (hle : call ≤ call')
    (hwait : grownWait period cap call = .ok wait) (hwait' : grownWait period cap call' = .ok wait') :
    wait.le wait' = true := by
  obtain ⟨top, htop, -⟩ := hgrowing.exists_top
  obtain ⟨rank, hrank, hnonneg⟩ := hgrowing.period_nonneg
  exact (Quantity.le_iff (place?_of_grownWait hrank hnonneg htop hwait)
    (place?_of_grownWait hrank hnonneg htop hwait')).mpr (grownPlace_mono rank top hle)

/-! ### The decision and the next policy -/

theorem IsGrowing.congr {b' : Backoff} (hgrowing : b.IsGrowing period cap m)
    (hperiod : b'.period = b.period) (hcap : b'.maxPeriod = b.maxPeriod)
    (hmax : b'.maxAttempts = b.maxAttempts) : b'.IsGrowing period cap m where
  period_eq := hperiod ▸ hgrowing.period_eq
  period_nonneg := hgrowing.period_nonneg
  cap_eq := hcap ▸ hgrowing.cap_eq
  cap_isReal := hgrowing.cap_isReal
  cap_nonneg := hgrowing.cap_nonneg
  maxAttempts_eq := hmax ▸ hgrowing.maxAttempts_eq

theorem bounds_of_decisionAt (hgrowing : b.IsGrowing period cap m) (htimely : question.IsTimely)
    (hdecided : decisionAt period cap m call question = .ok wait) :
    wait.IsReal ∧ (Quantity.whole 0).le wait = true ∧ wait.le cap = true := by
  unfold decisionAt at hdecided
  split at hdecided
  · cases hdecided
  · split at hdecided
    next moment hmoment =>
      obtain ⟨named, hnamed, hbounds⟩ := namedWait_eq_ok hgrowing htimely hmoment
      obtain rfl : named = wait := Except.ok.inj (hnamed.symm.trans hdecided)
      exact hbounds
    next =>
      rcases Nat.lt_or_ge Binary64.lastGrowth call with hbeyond | hcall
      · rw [grownWait_eq_error period cap hbeyond] at hdecided
        cases hdecided
      · obtain ⟨grown, hgrown, hbounds⟩ := grownWait_eq_ok hgrowing hcall
        obtain rfl : grown = wait := Except.ok.inj (hgrown.symm.trans hdecided)
        exact hbounds

/-- What a policy decides when an attempt failed as number `call`, and that it goes on so. -/
theorem next_eq_decisionAt (hgrowing : b.IsGrowing period cap m) (hattempt : b.attempt = min call m)
    (htimely : question.IsTimely) :
    ∃ b', b.next question.now question.fault = (decisionAt period cap m call question, b') ∧
      b'.IsGrowing period cap m ∧ b'.attempt = min (call + 1) m := by
  by_cases hlast : m ≤ call
  · have hexhausted := (isExhausted_iff hgrowing.maxAttempts_eq).mpr (by omega)
    rw [decisionAt, if_pos hlast]
    exact ⟨b, next_of_exhausted _ _ hexhausted, hgrowing, by omega⟩
  · have hleft : b.isExhausted = false := by
      rw [← Bool.not_eq_true, isExhausted_iff hgrowing.maxAttempts_eq]
      omega
    have hadvanced : b.advanced.IsGrowing period cap m := hgrowing.congr rfl rfl rfl
    have hcall : b.advanced.attempt - 1 = call := by
      change b.attempt + 1 - 1 = call
      omega
    have hnext : b.advanced.attempt = min (call + 1) m := by
      change b.attempt + 1 = _
      omega
    have hdecision : decisionAt period cap m call question =
        b.advanced.interval question.now question.fault := by
      rw [hadvanced.interval_eq, hcall, decisionAt, if_neg hlast]
    unfold next
    rw [hleft, if_neg Bool.false_ne_true, ← hdecision]
    cases hdecided : decisionAt period cap m call question with
    | error trouble => exact ⟨b.advanced, rfl, hadvanced, hnext⟩
    | ok wait =>
        obtain ⟨hreal, -⟩ := bounds_of_decisionAt hgrowing htimely hdecided
        obtain ⟨slept, hslept⟩ := waiting_eq_ok (b := b.advanced) hreal
        dsimp only
        rw [hslept]
        exact ⟨_, rfl, hadvanced.congr rfl rfl rfl, hnext⟩

/-! ## All decisions -/

/-- The decisions of a policy are told by the numbers of the attempts that failed. -/
theorem answerAll_eq_mapIdx {questions : List Question} (hgrowing : b.IsGrowing period cap m)
    (hattempt : b.attempt = min call m) (htimely : ∀ question ∈ questions, question.IsTimely) :
    (b.answerAll questions).1 =
      questions.mapIdx fun i question => decisionAt period cap m (call + i) question := by
  induction questions generalizing b call with
  | nil => rfl
  | cons question rest ih =>
      obtain ⟨hfirst, hrest⟩ := List.forall_mem_cons.mp htimely
      obtain ⟨b', hnext, hgrowing', hattempt'⟩ := next_eq_decisionAt hgrowing hattempt hfirst
      unfold answerAll
      rw [hnext, List.mapIdx_cons]
      dsimp only
      rw [ih hgrowing' hattempt' hrest]
      simp only [Nat.add_zero, Nat.add_assoc, Nat.add_comm 1]

/-- A setting that is a number which is not negative and which binary64 can hold. -/
def IsDuration (setting : Value) (q : Quantity) : Prop :=
  setting.quantity? = some q ∧ q.IsReal ∧ (Quantity.whole 0).le q = true

/-- How a policy with a cap and a limit of `m` attempts decides when an attempt failed as number `call`. -/
inductive IsDecision (cap : Quantity) (m call : Nat) (question : Question) :
    Except Fault Quantity → Prop where
  /-- With attempts left it names a wait, if the fault names a moment or a power can be computed. -/
  | wait {wait : Quantity} (hleft : call < m)
      (hcomputed : question.fault.retryAfter.isSome = true ∨ call ≤ Binary64.lastGrowth)
      (hnonneg : (Quantity.whole 0).le wait = true) (hcap : wait.le cap = true) :
      IsDecision cap m call question (.ok wait)
  | overflow (hleft : call < m) (hunnamed : question.fault.retryAfter = none)
      (hbeyond : Binary64.lastGrowth < call) :
      IsDecision cap m call question (.error (.runtime "OverflowError"))
  | propagate (hlast : m ≤ call) : IsDecision cap m call question (.error question.fault)

theorem isDecision_decisionAt (hgrowing : b.IsGrowing period cap m) (htimely : question.IsTimely)
    (call : Nat) : IsDecision cap m call question (decisionAt period cap m call question) := by
  rcases Nat.lt_or_ge call m with hleft | hlast
  · rw [decisionAt, if_neg (Nat.not_le.mpr hleft)]
    cases hmoment : question.fault.retryAfter with
    | some moment =>
        obtain ⟨wait, hwait, -, hnonneg, hcap⟩ := namedWait_eq_ok hgrowing htimely hmoment
        dsimp only
        rw [hwait]
        exact .wait hleft (Or.inl (by rw [hmoment]; rfl)) hnonneg hcap
    | none =>
        rcases Nat.lt_or_ge Binary64.lastGrowth call with hbeyond | hcall
        · dsimp only
          rw [grownWait_eq_error period cap hbeyond]
          exact .overflow hleft hmoment hbeyond
        · obtain ⟨wait, hwait, -, hnonneg, hcap⟩ := grownWait_eq_ok hgrowing hcall
          dsimp only
          rw [hwait]
          exact .wait hleft (Or.inr hcall) hnonneg hcap
  · rw [decisionAt, if_pos hlast]
    exact .propagate hlast

/-- How a policy with a cap and a limit of attempts decides one question after another. -/
structure Decides (cap : Quantity) (m : Nat) (questions : List Question)
    (decisions : List (Except Fault Quantity)) : Prop where
  answered : decisions.length = questions.length
  /-- What stands at a position is about an attempt whose number is one more. -/
  decision : ∀ (i : Nat) (question : Question), questions[i]? = some question →
    ∃ decision, decisions[i]? = some decision ∧ IsDecision cap m (i + 1) question decision
  /-- Waits after faults that name no moment do not decrease. -/
  grows : ∀ (i j : Nat) (earlier later : Question) (wait wait' : Quantity), i ≤ j →
    questions[i]? = some earlier → earlier.fault.retryAfter = none → decisions[i]? = some (.ok wait) →
    questions[j]? = some later → later.fault.retryAfter = none → decisions[j]? = some (.ok wait') →
    wait.le wait' = true

theorem decides_answerAll {questions : List Question} (hgrowing : b.IsGrowing period cap m)
    (hattempt : b.attempt = min 1 m) (htimely : ∀ question ∈ questions, question.IsTimely) :
    Decides cap m questions (b.answerAll questions).1 := by
  have hdecision : ∀ (i : Nat) (question : Question), questions[i]? = some question →
      (b.answerAll questions).1[i]? = some (decisionAt period cap m (i + 1) question) := by
    intro i question hquestion
    rw [answerAll_eq_mapIdx hgrowing hattempt htimely, List.getElem?_mapIdx, hquestion, Nat.add_comm i]
    rfl
  refine ⟨?_, ?_, ?_⟩
  · rw [answerAll_eq_mapIdx hgrowing hattempt htimely, List.length_mapIdx]
  · intro i question hquestion
    have hquestionTimely := htimely question (List.mem_of_getElem? hquestion)
    exact ⟨_, hdecision i question hquestion, isDecision_decisionAt hgrowing hquestionTimely (i + 1)⟩
  · intro i j earlier later wait wait' hle hearlier hunnamed hwait hlater hunnamed' hwait'
    have hgrown : ∀ {k : Nat} {question : Question} {named : Quantity},
        questions[k]? = some question → question.fault.retryAfter = none →
        (b.answerAll questions).1[k]? = some (.ok named) →
        grownWait period cap (k + 1) = .ok named := by
      intro k question named hquestion hnone hnamed
      have heq := Option.some.inj ((hdecision k question hquestion).symm.trans hnamed)
      unfold decisionAt at heq
      split at heq
      · cases heq
      · rw [hnone] at heq
        exact heq
    exact grownWait_le hgrowing (Nat.succ_le_succ hle) (hgrown hearlier hunnamed hwait)
      (hgrown hlater hunnamed' hwait')

/-- A policy that is made with numbers that are not negative grows its waits. -/
theorem isGrowing_of_durations {setting maxSetting : Value} {q : Quantity} (hperiod : IsDuration setting q)
    (hcap : IsDuration maxSetting cap) (m : Nat) :
    ∃ period, IsGrowing { period := setting, maxPeriod := maxSetting, maxAttempts := .whole m }
      period cap m := by
  obtain ⟨hq, hisReal, hnonneg⟩ := hperiod
  obtain ⟨period, hreal⟩ := Option.isSome_iff_exists.mp hisReal
  obtain ⟨hcapNumber, hcapReal, hcapNonneg⟩ := hcap
  have hrank := Quantity.rank?_of_toReal? hreal hnonneg
  exact ⟨period, ⟨q, hq, hreal⟩, hrank, hcapNumber, hcapReal, hcapNonneg, rfl⟩

theorem make_eq_ok (setting maxSetting : Value) (hm : 1 ≤ m) :
    make setting maxSetting (.int m) =
      .ok { period := setting, maxPeriod := maxSetting, maxAttempts := .whole m } := by
  have hleft : (Quantity.whole m).lt (.whole 1) = false := by
    rw [← Bool.not_eq_true, Quantity.lt_iff rfl rfl, Quantity.placeOfWhole_strictMono.lt_iff_lt]
    omega
  change (if (Quantity.whole m).lt (.whole 1) = true then _ else _) = _
  rw [hleft]
  rfl

/--
A policy that is made for at least one attempt with a period and a cap that are not negative decides
every question: it names waits between nothing and the cap while it has attempts left, and then hands
the fault back. Nothing else is raised, unless a wait of a fault that names no moment is asked for
after more attempts than there are powers. The waits after such faults do not decrease, and the policy
has slept for the sum of the waits that it has named.
-/
theorem answerAll_of_make {setting maxSetting : Value} {q cap : Quantity} {m : Nat}
    (hperiod : IsDuration setting q) (hcap : IsDuration maxSetting cap) (hm : 1 ≤ m)
    (questions : List Question) (htimely : ∀ question ∈ questions, question.IsTimely) :
    ∃ b, make setting maxSetting (.int m) = .ok b ∧
      Decides cap m questions (b.answerAll questions).1 ∧
      (b.answerAll questions).2.sleptFor = addWaits (.zeroOf false) (waitsOf (b.answerAll questions).1) := by
  obtain ⟨period, hgrowing⟩ := isGrowing_of_durations hperiod hcap m
  refine ⟨_, make_eq_ok setting maxSetting hm, ?_, sleptFor_answerAll _ _⟩
  exact decides_answerAll hgrowing (Nat.min_eq_left hm).symm htimely

/-- A fault that names no moment, at the beginning of time. -/
def silence : Question :=
  ⟨⟨0, some 0⟩, { family := .retryable }⟩

theorem isTimely_silence : silence.IsTimely := by
  refine ⟨rfl, fun moment hmoment => ?_⟩
  cases hmoment

theorem isDuration_second : IsDuration (.float (.ofInt 1)) (.real (Binary64.ofInt 1)) := by
  refine ⟨?_, Quantity.isReal_real _, ?_⟩
  · decide +kernel
  · decide +kernel

/-- Of two attempts that fail, the first is followed by a wait and the second by its fault. -/
theorem answerAll_of_make_twice :
    ∃ b, make (.float (.ofInt 1)) (.float (.ofInt 1)) (.int (2 : Nat)) = .ok b ∧
      Decides (.real (Binary64.ofInt 1)) 2 [silence, silence] (b.answerAll [silence, silence]).1 ∧
      (b.answerAll [silence, silence]).2.sleptFor =
        addWaits (.zeroOf false) (waitsOf (b.answerAll [silence, silence]).1) := by
  refine answerAll_of_make isDuration_second isDuration_second (by decide) [silence, silence] ?_
  intro question hquestion
  obtain rfl : question = silence := by simpa using hquestion
  exact isTimely_silence

/-- A policy with so many attempts that their waits cannot all be computed. -/
def patient : Backoff where
  period := .float (.ofInt 1)
  maxPeriod := .float (.ofInt 1)
  maxAttempts := .whole (1752 : Nat)

/-- With an attempt left, a wait is not a second, which is the cap, but cannot be computed at all. -/
theorem patient_overflows :
    make (.float (.ofInt 1)) (.float (.ofInt 1)) (.int (1752 : Nat)) = .ok patient ∧
      (patient.answerAll (List.replicate 1751 silence)).1[1750]? =
        some (.error (.runtime "OverflowError")) := by
  refine ⟨make_eq_ok _ _ (by decide), ?_⟩
  obtain ⟨period, hgrowing⟩ := isGrowing_of_durations isDuration_second isDuration_second 1752
  have htimely : ∀ question ∈ List.replicate 1751 silence, question.IsTimely := fun question hquestion =>
    List.eq_of_mem_replicate hquestion ▸ isTimely_silence
  have hdecides := decides_answerAll (b := patient) hgrowing rfl htimely
  have hquestion : (List.replicate 1751 silence)[1750]? = some silence := by
    rw [List.getElem?_replicate, if_pos (by decide)]
  obtain ⟨decision, hanswer, hdecision⟩ := hdecides.decision 1750 silence hquestion
  rw [hanswer]
  cases hdecision with
  | wait _ hcomputed =>
      rcases hcomputed with hnamed | hcall
      · cases hnamed
      · exact absurd hcall (by decide)
  | overflow => rfl
  | propagate hlast => exact absurd hlast (by decide)

end Backoff

end HttpBinding
