import DomainLens.Library.Double
import DomainLens.Library.Exposition
import DomainLens.Library.OrderedDict
import DomainLens.Python.Access

/-!
# Metrics

Counters of this process and what is read at the time of a scrape are written in the text format of metrics,
with six digits for each number.  The file settles which numbers read back as they were given.
-/

namespace DomainLens
namespace Metrics

open Python Exposition

/-! ## Counters -/

/-- Labels with their names, in an order. -/
abbrev Labels := List (Text × Text)

/-- A call of `inc` with a name and labels that the format has. -/
structure Call where
  name : Text
  amount : ℤ
  labels : Labels
  isName : isWord isNameChar name = true
  areLabels : ∀ label ∈ labels, isWord isLabelChar label.1 = true

/-- `tuple(sorted(labels.items()))` with the name. -/
def Call.key (call : Call) : Text × Labels :=
  (call.name, call.labels.insertionSort fun left right => toLex left ≤ toLex right)

/-- `_counters`: keys that the format has, each with its value. -/
structure Counters where
  entries : List ((Text × Labels) × ℤ)
  distinct : (entries.map Prod.fst).Nodup
  valid : ∀ entry ∈ entries, isWord isNameChar entry.1.1 = true ∧
    ∀ label ∈ entry.1.2, isWord isLabelChar label.1 = true

theorem Call.valid (call : Call) : isWord isNameChar call.key.1 = true ∧
    ∀ label ∈ call.key.2, isWord isLabelChar label.1 = true :=
  ⟨call.isName, fun label member => call.areLabels label ((List.mem_insertionSort _).mp member)⟩

def Counters.empty : Counters where
  entries := []
  distinct := List.nodup_nil
  valid := fun _ member => absurd member List.not_mem_nil

/-- `inc`, where no value reaches the whole numbers that a double leaves out. -/
def inc (counters : Counters) (call : Call) : Counters where
  entries := OrderedDict.assign call.key ((counters.entries.lookup call.key).getD 0 + call.amount)
    counters.entries
  distinct := OrderedDict.nodup_assign counters.distinct
  valid := by
    intro entry member
    rcases OrderedDict.mem_assign member with rfl | old
    · exact call.valid
    · exact counters.valid entry old

/-- What the calls under a key add up to. -/
def total (key : Text × Labels) (calls : List Call) : ℤ :=
  ((calls.filter fun call => call.key = key).map Call.amount).sum

/-! ## The text -/

/-- `str.replace` of a character. -/
def replaceChar (old : Char) (new : Text) (text : Text) : Text :=
  text.flatMap fun char => if char = old then new else [char]

/-- `_fmt_labels`. -/
def fmtLabels (labels : Labels) : Text :=
  if labels = [] then []
  else
    '\x7b' :: ([','].intercalate (labels.map fun label =>
      label.1 ++ "=\"".toList ++ replaceChar '"' "\\\"".toList (replaceChar '\n' "\\n".toList
        (replaceChar '\\' "\\\\".toList label.2)) ++ "\"".toList) ++ ['\x7d'])

/-- `format(value, "g")` of a whole number: six digits, from a million on with an exponent. -/
def general (value : ℤ) : Text :=
  let size := value.natAbs
  let exponent := Nat.log 10 size
  writtenSign (value < 0) ++
    if exponent < 6 then strOf size
    else
      let rounded := (Double.roundEven (size / 10 ^ (exponent - 5))).toNat
      let carries := rounded = 10 ^ 6
      let mantissa := (strOf (if carries then 10 ^ 5 else rounded)).rdropWhile (· = '0')
      let exponent := if carries then exponent + 1 else exponent
      mantissa.take 1 ++ ((if mantissa.tail = [] then [] else '.' :: mantissa.tail) ++
        'e' :: '+' :: if exponent < 10 then '0' :: strOf exponent else strOf exponent)

/-- What `metric` is called with. -/
structure Metric where
  name : Text
  kind : Text
  helpText : Text
  samples : List (Labels × Option ℤ)

def Metric.valued (metric : Metric) : List (Labels × ℤ) :=
  metric.samples.filterMap fun sample => sample.2.map fun value => (sample.1, value)

/-- `metric`: the lines it adds. -/
def Metric.lines (metric : Metric) : List Text :=
  if metric.valued = [] then []
  else
    ("# HELP ".toList ++ metric.name ++ ' ' :: metric.helpText) ::
      ("# TYPE ".toList ++ metric.name ++ ' ' :: metric.kind) ::
        metric.valued.map fun sample => metric.name ++ fmtLabels sample.1 ++ ' ' :: general sample.2

/-- What is read for a scrape, whole numbers all of them: the time of the last run is what `_epoch` makes of
    it, and the run took whole seconds. -/
structure Readings where
  version : Text
  totalMonitors : Option ℤ
  enabledMonitors : Option ℤ
  dueMonitors : Option ℤ
  totalScans : Option ℤ
  uniqueDomains : Option ℤ
  runningJobs : Option ℤ
  events : List (Text × ℤ)
  verified : ℤ
  tokens : ℤ
  totalRuns : Option ℤ
  lastRunDurationMs : Option ℤ
  lastRunProcessed : Option ℤ
  lastRunErrors : Option ℤ
  lastRunAt : Option ℤ
  whole : ∀ duration ∈ lastRunDurationMs, 1000 ∣ duration

def gauge (name helpText label : String) (values : List (Text × Option ℤ)) : Metric where
  name := name.toList
  kind := "gauge".toList
  helpText := helpText.toList
  samples := values.map fun value => ([(label.toList, value.1)], value.2)

/-- A metric of one value without labels. -/
def single (name kind helpText : String) (value : Option ℤ) : Metric where
  name := name.toList
  kind := kind.toList
  helpText := helpText.toList
  samples := [([], value)]

/-- The calls of `metric` before the counters. -/
def gauges (readings : Readings) : List Metric :=
  [gauge "domainlens_build_info" "Version of this instance" "version" [(readings.version, some 1)],
    gauge "domainlens_monitors" "Monitors by state" "state"
      [("total".toList, readings.totalMonitors), ("enabled".toList, readings.enabledMonitors),
        ("due".toList, readings.dueMonitors)],
    single "domainlens_scans_stored" "gauge" "Scans kept in history" readings.totalScans,
    single "domainlens_domains_stored" "gauge" "Distinct domains in history" readings.uniqueDomains,
    single "domainlens_scan_jobs_running" "gauge" "Background scans running now" readings.runningJobs,
    gauge "domainlens_monitor_events_24h" "Monitor events in the last 24 hours" "severity"
      (["critical", "high", "medium", "low", "info"].map fun severity =>
        (severity.toList, some ((readings.events.lookup severity.toList).getD 0))),
    single "domainlens_verified_domains" "gauge" "Domains verified for active tests"
      (some readings.verified),
    single "domainlens_api_tokens_active" "gauge" "Unexpired, unrevoked API tokens" (some readings.tokens),
    single "domainlens_scheduler_runs_total" "counter" "Scheduler runs since start" readings.totalRuns,
    single "domainlens_scheduler_last_run_duration_seconds" "gauge" "Duration of the last scheduler run"
      (readings.lastRunDurationMs.map (· / 1000)),
    single "domainlens_scheduler_last_run_processed" "gauge" "Monitors scanned in the last run"
      readings.lastRunProcessed,
    single "domainlens_scheduler_last_run_errors" "gauge" "Monitor scans that failed in the last run"
      readings.lastRunErrors,
    single "domainlens_scheduler_last_run_timestamp_seconds" "gauge" "Unix time of the last run"
      readings.lastRunAt]

/-- `_HELP`. -/
def helpTexts : List (Text × Text × Text) :=
  [("domainlens_scans_started_total".toList, "counter".toList,
      "Scans started through the API or UI".toList),
    ("domainlens_notifications_total".toList, "counter".toList,
      "Alert deliveries by channel and result".toList)]

/-- The metric of the counters of a name. -/
def counterMetric (counters : Counters) (name : Text) : Metric :=
  let described := (helpTexts.lookup name).getD ("counter".toList, name)
  { name
    kind := described.1
    helpText := described.2
    samples := (((counters.entries.filter fun entry => entry.1.1 = name).map fun entry =>
      (entry.1.2, entry.2)).insertionSort fun left right =>
        toLex (left.1.map toLex, left.2) ≤ toLex (right.1.map toLex, right.2)).map fun sample =>
      (sample.1, some sample.2) }

/-- The calls of `metric` for the counters, by name. -/
def counterMetrics (counters : Counters) : List Metric :=
  ((fromKeys (counters.entries.map fun entry => entry.1.1)).insertionSort (· ≤ ·)).map
    (counterMetric counters)

/-- `render`. -/
def render (readings : Readings) (counters : Counters) : Text :=
  ['\n'].intercalate ((gauges readings ++ counterMetrics counters).flatMap Metric.lines) ++ ['\n']

/-! ## What was given -/

/-- The samples of a metric that have a value, with its name. -/
def Metric.given (metric : Metric) : List ((Text × Labels) × ℤ) :=
  metric.valued.map fun sample => ((metric.name, sample.1), sample.2)

/-- The samples of the gauges that have a value. -/
def gaugeSamples (readings : Readings) : List ((Text × Labels) × ℤ) :=
  (gauges readings).flatMap Metric.given

/-- What a scrape is given: counters and gauges below the whole numbers that a double leaves out. -/
structure Scrape where
  readings : Readings
  counters : Counters
  small : ∀ sample ∈ gaugeSamples readings ++ counters.entries, sample.2.natAbs < 2 ^ 53

/-- The samples that a scrape is given. -/
def Scrape.given (scrape : Scrape) : List ((Text × Labels) × ℤ) :=
  gaugeSamples scrape.readings ++ scrape.counters.entries

/-- A sample with its value as a number. -/
def asSample (sample : (Text × Labels) × ℤ) : Sample := ⟨sample.1.1, sample.1.2, sample.2⟩

/-- The text reads as the samples that were given, in some order. -/
def Told (scrape : Scrape) : Prop :=
  ∃ samples, readText (render scrape.readings scrape.counters) = some samples ∧
    samples.Perm (scrape.given.map asSample)

/-- A number of six significant digits. -/
def Short (value : ℤ) : Prop := ∃ digits < 10 ^ 6, ∃ zeros, value.natAbs = digits * 10 ^ zeros

/-! ## Numbers -/

/-- The number that six digits make of a number. -/
def sixDigits (value : ℤ) : ℤ :=
  if Nat.log 10 value.natAbs < 6 then value
  else
    signFactor (value < 0) * (Double.roundEven (value.natAbs / 10 ^ (Nat.log 10 value.natAbs - 5)) *
      10 ^ (Nat.log 10 value.natAbs - 5))

private theorem signFactor_natAbs (value : ℤ) : signFactor (value < 0) * value.natAbs = value := by
  unfold signFactor
  by_cases negative : value < 0
  · rw [if_pos (decide_eq_true negative)]
    omega
  · rw [if_neg (by simpa using negative)]
    omega

private theorem isDigit_strOf (value : ℕ) : (strOf value).all Char.isDigit = true :=
  List.all_eq_true.mpr fun _ member => Nat.isDigit_of_mem_toDigits (by decide) (by decide) member

private theorem ofDigitChars_strOf (value : ℕ) : Nat.ofDigitChars 10 (strOf value) 0 = value :=
  Nat.ofDigitChars_ten_toDigits

private theorem roundEven_bounds {size : ℕ} (large : ¬ Nat.log 10 size < 6) :
    10 ^ 5 ≤ Double.roundEven (size / 10 ^ (Nat.log 10 size - 5)) ∧
      Double.roundEven (size / 10 ^ (Nat.log 10 size - 5)) ≤ 10 ^ 6 := by
  have positive : (0 : ℚ) < 10 ^ (Nat.log 10 size - 5) := by positivity
  have nonzero : size ≠ 0 := by
    rintro rfl
    exact large (by rw [Nat.log_zero_right]; decide)
  have least : 10 ^ 5 * 10 ^ (Nat.log 10 size - 5) ≤ size := by
    rw [← pow_add, Nat.add_sub_cancel' (by omega)]
    exact Nat.pow_log_le_self 10 nonzero
  have most : size ≤ 10 ^ 6 * 10 ^ (Nat.log 10 size - 5) := by
    rw [← pow_add, show 6 + (Nat.log 10 size - 5) = Nat.log 10 size + 1 by omega]
    exact (Nat.lt_pow_succ_log_self (by decide) size).le
  constructor
  · refine Double.le_roundEven ((le_div_iff₀ positive).mpr ?_)
    exact_mod_cast least
  · refine Double.roundEven_le ((div_le_iff₀ positive).mpr ?_)
    exact_mod_cast most

private theorem exists_zeros (text : Text) :
    ∃ zeros, text = text.rdropWhile (· = '0') ++ List.replicate zeros '0' := by
  have zeros : text.rtakeWhile (· = '0') = List.replicate (text.rtakeWhile (· = '0')).length '0' := by
    refine List.eq_replicate_of_mem fun char member => ?_
    simpa using List.mem_rtakeWhile_imp member
  exact ⟨_, by rw [← zeros, List.rdropWhile_append_rtakeWhile]⟩

private theorem exists_fraction {mantissa : ℕ} (least : 10 ^ 5 ≤ mantissa) (most : mantissa < 10 ^ 6) :
    ∃ first fraction, (strOf mantissa).rdropWhile (· = '0') = first :: fraction ∧
      first.isDigit = true ∧ fraction.all Char.isDigit = true ∧ fraction.length ≤ 5 ∧
      mantissa = Nat.ofDigitChars 10 (first :: fraction) 0 * 10 ^ (5 - fraction.length) := by
  obtain ⟨zeros, split⟩ := exists_zeros (strOf mantissa)
  have length : (strOf mantissa).length = 6 := by
    have five : ¬ (strOf mantissa).length ≤ 5 := fun short =>
      absurd ((Nat.length_toDigits_le_iff (by decide) (by decide)).mp short) (by omega)
    have six := length_strOf_le (by decide) most
    omega
  have value := ofDigitChars_strOf mantissa
  rw [split, Nat.ofDigitChars_append, Nat.ofDigitChars_replicate_zero] at value
  rw [split, List.length_append, List.length_replicate] at length
  have digits : ∀ char ∈ (strOf mantissa).rdropWhile (· = '0'), char.isDigit = true := fun char member =>
    List.all_eq_true.mp (isDigit_strOf mantissa) char ((List.rdropWhile_prefix _ _).subset member)
  cases rest : (strOf mantissa).rdropWhile (· = '0') with
  | nil =>
      rw [rest, Nat.ofDigitChars_nil] at value
      omega
  | cons first fraction =>
      rw [rest] at value length digits
      rw [List.length_cons] at length
      refine ⟨first, fraction, rfl, digits first List.mem_cons_self, ?_, by omega, ?_⟩
      · exact List.all_eq_true.mpr fun char member => digits char (List.mem_cons_of_mem first member)
      · rw [show 5 - fraction.length = zeros by omega, mul_comm]
        exact value.symm

/-- The exponent of a number, of two digits at least. -/
private def writtenExponent (exponent : ℕ) : Text :=
  if exponent < 10 then '0' :: strOf exponent else strOf exponent

private theorem ofDigitChars_writtenExponent (exponent : ℕ) : writtenExponent exponent ≠ [] ∧
    (writtenExponent exponent).all Char.isDigit = true ∧
      Nat.ofDigitChars 10 (writtenExponent exponent) 0 = exponent := by
  unfold writtenExponent
  split_ifs
  · refine ⟨List.cons_ne_nil _ _, ?_, ?_⟩
    · rw [List.all_cons, isDigit_strOf]
      decide
    · rw [Nat.ofDigitChars_cons]
      exact ofDigitChars_strOf exponent
  · exact ⟨strOf_ne_nil exponent, isDigit_strOf exponent, ofDigitChars_strOf exponent⟩

private theorem readNumber_mantissa {mantissa exponent : ℕ} (least : 10 ^ 5 ≤ mantissa)
    (most : mantissa < 10 ^ 6) (large : 5 ≤ exponent) (negative : Bool) :
    readNumber (writtenSign negative ++
      (((strOf mantissa).rdropWhile (· = '0')).take 1 ++
        ((if ((strOf mantissa).rdropWhile (· = '0')).tail = [] then []
          else '.' :: ((strOf mantissa).rdropWhile (· = '0')).tail) ++
          'e' :: '+' :: writtenExponent exponent))) =
      some ((signFactor negative : ℚ) * ((mantissa : ℚ) * 10 ^ (exponent - 5))) := by
  obtain ⟨first, fraction, text, digit, every, length, value⟩ := exists_fraction least most
  obtain ⟨nonempty, digits, read⟩ := ofDigitChars_writtenExponent exponent
  have sum : (exponent - fraction.length : ℤ) = ((5 - fraction.length + (exponent - 5) : ℕ) : ℤ) := by
    omega
  rw [text, List.take_succ_cons, List.take_zero, List.tail_cons, List.singleton_append,
    readNumber_scientific digit every nonempty digits, read, sum, zpow_natCast, pow_add]
  have cast := congrArg (Nat.cast : ℕ → ℚ) value
  push_cast at cast
  rw [cast, mul_assoc, mul_assoc]

theorem readNumber_general (value : ℤ) : readNumber (general value) = some (sixDigits value : ℚ) := by
  rw [general, sixDigits]
  by_cases short : Nat.log 10 value.natAbs < 6
  · simp only [if_pos short]
    have factored := congrArg (Int.cast : ℤ → ℚ) (signFactor_natAbs value)
    rw [Int.cast_mul, Int.cast_natCast] at factored
    rw [readNumber_digits (strOf_ne_nil _) (isDigit_strOf _), ofDigitChars_strOf, factored]
  · simp only [if_neg short]
    obtain ⟨least, most⟩ := roundEven_bounds short
    obtain ⟨rounded, isRounded⟩ := Int.eq_ofNat_of_zero_le (le_trans (by decide) least)
    rw [isRounded] at least most ⊢
    rw [Int.toNat_natCast]
    by_cases carries : rounded = 10 ^ 6
    · simp only [if_pos carries]
      refine (readNumber_mantissa (by decide) (by decide) (by omega) _).trans (congrArg some ?_)
      rw [carries, show Nat.log 10 value.natAbs + 1 - 5 = Nat.log 10 value.natAbs - 5 + 1 by omega, pow_succ]
      push_cast
      ring
    · simp only [if_neg carries]
      have room : rounded < 10 ^ 6 := by
        have bound : rounded ≤ 10 ^ 6 := by exact_mod_cast most
        omega
      refine (readNumber_mantissa (by exact_mod_cast least) room (by omega) _).trans (congrArg some ?_)
      push_cast
      ring

private theorem natAbs_signFactor_mul (negative : Bool) (size : ℕ) :
    (signFactor negative * size : ℤ).natAbs = size := by
  cases negative <;> simp [signFactor]

theorem short_sixDigits (value : ℤ) : Short (sixDigits value) := by
  rw [sixDigits]
  by_cases small : Nat.log 10 value.natAbs < 6
  · rw [if_pos small]
    exact ⟨_, Nat.lt_pow_of_log_lt (by decide) small, 0, by rw [pow_zero, mul_one]⟩
  · rw [if_neg small]
    obtain ⟨least, most⟩ := roundEven_bounds small
    obtain ⟨rounded, isRounded⟩ := Int.eq_ofNat_of_zero_le (le_trans (by decide) least)
    rw [isRounded] at most ⊢
    have bound : rounded ≤ 10 ^ 6 := by exact_mod_cast most
    have size := natAbs_signFactor_mul (value < 0) (rounded * 10 ^ (Nat.log 10 value.natAbs - 5))
    push_cast at size
    rcases bound.lt_or_eq with less | same
    · exact ⟨rounded, less, _, size⟩
    · refine ⟨10 ^ 5, by decide, Nat.log 10 value.natAbs - 5 + 1, size.trans ?_⟩
      rw [same, pow_succ' 10 (Nat.log 10 value.natAbs - 5), ← mul_assoc, ← pow_succ]

theorem sixDigits_of_short {value : ℤ} (short : Short value) : sixDigits value = value := by
  obtain ⟨digits, few, zeros, size⟩ := short
  rw [sixDigits]
  split_ifs with small
  · rfl
  · have nonzero : value.natAbs ≠ 0 := by
      intro zero
      exact small (by rw [zero, Nat.log_zero_right]; decide)
    have enough : Nat.log 10 value.natAbs - 5 ≤ zeros := by
      by_contra less
      have power : 10 ^ zeros * 10 ^ 6 ≤ 10 ^ Nat.log 10 value.natAbs := by
        rw [← pow_add]
        exact Nat.pow_le_pow_right (by decide) (by omega)
      have large := power.trans (Nat.pow_log_le_self 10 nonzero)
      rw [size, mul_comm] at large
      exact absurd (Nat.le_of_mul_le_mul_right large (by positivity)) (not_le.mpr few)
    have split : value.natAbs = digits * 10 ^ (zeros - (Nat.log 10 value.natAbs - 5)) *
        10 ^ (Nat.log 10 value.natAbs - 5) := by
      rw [mul_assoc, ← pow_add, Nat.sub_add_cancel enough]
      exact size
    have whole : (value.natAbs : ℚ) / 10 ^ (Nat.log 10 value.natAbs - 5) =
        ((digits * 10 ^ (zeros - (Nat.log 10 value.natAbs - 5)) : ℕ) : ℤ) := by
      have cast := congrArg (Nat.cast : ℕ → ℚ) split
      rw [Nat.cast_mul, Nat.cast_pow, Nat.cast_ofNat] at cast
      rw [div_eq_iff (by positivity), Int.cast_natCast]
      exact cast
    rw [whole, Double.roundEven_intCast]
    have same := signFactor_natAbs value
    rw [split] at same
    exact_mod_cast same

/-! ## Lines -/

private theorem replaceChar_eq_escape (text : Text) :
    replaceChar '"' "\\\"".toList (replaceChar '\n' "\\n".toList (replaceChar '\\' "\\\\".toList text)) =
      text.flatMap escape := by
  rw [replaceChar, replaceChar, replaceChar, List.flatMap_assoc, List.flatMap_assoc]
  refine List.flatMap_congr fun char _ => ?_
  rw [escape]
  split_ifs with isBackslash isBreak isQuote
  · rfl
  · rw [List.flatMap_singleton, if_pos isBreak]
    rfl
  · rw [List.flatMap_singleton, if_neg isBreak, List.flatMap_singleton, if_pos isQuote]
    rfl
  · rw [List.flatMap_singleton, if_neg isBreak, List.flatMap_singleton, if_neg isQuote]

private theorem line_eq_written (name : Text) (labels : Labels) (number : Text) :
    name ++ fmtLabels labels ++ ' ' :: number = writtenSample name labels number := by
  have labelled : (labels.map fun label =>
      label.1 ++ "=\"".toList ++ replaceChar '"' "\\\"".toList (replaceChar '\n' "\\n".toList
        (replaceChar '\\' "\\\\".toList label.2)) ++ "\"".toList) = labels.map writtenLabel := by
    refine List.map_congr_left fun label _ => ?_
    rw [replaceChar_eq_escape, writtenLabel, List.append_assoc, List.append_assoc]
    rfl
  rw [fmtLabels, labelled, writtenSample, List.append_assoc]

/-- A metric whose name and labels the format has, with texts of one line. -/
def Metric.isValid (metric : Metric) : Bool :=
  isWord isNameChar metric.name && !metric.kind.contains '\n' && !metric.helpText.contains '\n' &&
    metric.samples.all fun sample => sample.1.all fun label => isWord isLabelChar label.1

private theorem isValid_gauge {name helpText label : String}
    (valid : (isWord isNameChar name.toList && !helpText.toList.contains '\n' &&
      isWord isLabelChar label.toList) = true) (values : List (Text × Option ℤ)) :
    (gauge name helpText label values).isValid = true := by
  obtain ⟨plain, isLabel⟩ := Bool.and_eq_true_iff.mp valid
  obtain ⟨isName, isLine⟩ := Bool.and_eq_true_iff.mp plain
  have isKind : (!"gauge".toList.contains '\n') = true := by decide
  simp only [Metric.isValid, gauge, isName, isLine, isKind, Bool.true_and, List.all_map]
  exact List.all_eq_true.mpr fun value _ => by simp [isLabel]

private theorem isValid_single {name kind helpText : String}
    (valid : (isWord isNameChar name.toList && !kind.toList.contains '\n' &&
      !helpText.toList.contains '\n') = true) (value : Option ℤ) :
    (single name kind helpText value).isValid = true := by
  rw [Metric.isValid, single, valid]
  rfl

theorem isValid_gauges {readings : Readings} {metric : Metric} (member : metric ∈ gauges readings) :
    metric.isValid = true := by
  simp only [gauges, List.mem_cons, List.not_mem_nil, or_false] at member
  rcases member with rfl | rfl | rfl | rfl | rfl | rfl | rfl | rfl | rfl | rfl | rfl | rfl | rfl
  · exact isValid_gauge (by decide +kernel) _
  · exact isValid_gauge (by decide +kernel) _
  · exact isValid_single (by decide +kernel) _
  · exact isValid_single (by decide +kernel) _
  · exact isValid_single (by decide +kernel) _
  · exact isValid_gauge (by decide +kernel) _
  all_goals exact isValid_single (by decide +kernel) _

def readBack (sample : (Text × Labels) × ℤ) : Sample := asSample (sample.1, sixDigits sample.2)

def lineOf (sample : (Text × Labels) × ℤ) : Text :=
  writtenSample sample.1.1 sample.1.2 (general sample.2)

private theorem lines_eq (metric : Metric) (some : metric.valued ≠ []) : metric.lines =
    ("# HELP ".toList ++ metric.name ++ ' ' :: metric.helpText) ::
      ("# TYPE ".toList ++ metric.name ++ ' ' :: metric.kind) :: metric.given.map lineOf := by
  rw [Metric.lines, if_neg some, Metric.given, List.map_map]
  refine congrArg _ (congrArg _ (List.map_congr_left fun sample _ => ?_))
  exact line_eq_written metric.name sample.1 (general sample.2)

private def isNumberChar (char : Char) : Bool := char.isDigit || char ∈ ['-', '+', '.', 'e']

private theorem isNumberChar_of_isDigit {char : Char} (digit : char.isDigit = true) :
    isNumberChar char = true := by
  rw [isNumberChar, digit, Bool.true_or]

private theorem isNumberChar_scientific {mantissa exponent : Text}
    (digits : ∀ char ∈ mantissa, char.isDigit = true) (more : ∀ char ∈ exponent, char.isDigit = true)
    {char : Char} (member : char ∈ mantissa.take 1 ++
      ((if mantissa.tail = [] then [] else '.' :: mantissa.tail) ++ 'e' :: '+' :: exponent)) :
    isNumberChar char = true := by
  rcases List.mem_append.mp member with first | rest
  · exact isNumberChar_of_isDigit (digits char (List.mem_of_mem_take first))
  · rcases List.mem_append.mp rest with fraction | marked
    · split_ifs at fraction
      · cases fraction
      · rcases List.mem_cons.mp fraction with rfl | later
        · decide
        · exact isNumberChar_of_isDigit (digits char (List.mem_of_mem_tail later))
    · rcases List.mem_cons.mp marked with rfl | signed
      · decide
      · rcases List.mem_cons.mp signed with rfl | later
        · decide
        · exact isNumberChar_of_isDigit (more char later)

private theorem isNumberChar_general {value : ℤ} {char : Char} (member : char ∈ general value) :
    isNumberChar char = true := by
  have digits : ∀ number : ℕ, ∀ char ∈ strOf number, char.isDigit = true := fun number =>
    List.all_eq_true.mp (isDigit_strOf number)
  rw [general] at member
  rcases List.mem_append.mp member with inSign | inSize
  · rw [writtenSign] at inSign
    split_ifs at inSign
    · rw [List.mem_singleton.mp inSign]
      decide
    · cases inSign
  · by_cases short : Nat.log 10 value.natAbs < 6
    · rw [if_pos short] at inSize
      exact isNumberChar_of_isDigit (digits _ char inSize)
    · rw [if_neg short] at inSize
      refine isNumberChar_scientific (fun char member => ?_) ?_ inSize
      · exact digits _ char ((List.rdropWhile_prefix _ _).subset member)
      · exact List.all_eq_true.mp (ofDigitChars_writtenExponent _).2.1

private theorem general_isLine (value : ℤ) : general value ≠ [] ∧
    (∀ char ∈ general value, isBlank char = false) ∧ '\x7b' ∉ general value ∧
      '\n' ∉ general value := by
  refine ⟨fun empty => ?_, fun char member => ?_, fun member => ?_, fun member => ?_⟩
  · have read := readNumber_general value
    rw [empty] at read
    cases read
  · exact isBlank_eq_false (by decide) (isNumberChar_general member)
  · exact absurd (isNumberChar_general member) (by decide)
  · exact absurd (isNumberChar_general member) (by decide)

private theorem parts_of_isValid {metric : Metric} (valid : metric.isValid = true) :
    isWord isNameChar metric.name = true ∧ '\n' ∉ metric.kind ∧ '\n' ∉ metric.helpText ∧
      ∀ sample ∈ metric.given, sample.1.1 = metric.name ∧
        ∀ label ∈ sample.1.2, isWord isLabelChar label.1 = true := by
  simp only [Metric.isValid, Bool.and_eq_true, Bool.not_eq_true', List.contains_eq_mem,
    decide_eq_false_iff_not, List.all_eq_true] at valid
  obtain ⟨⟨⟨isName, kind⟩, helpText⟩, labels⟩ := valid
  refine ⟨isName, kind, helpText, fun sample member => ?_⟩
  obtain ⟨valued, isValued, rfl⟩ := List.mem_map.mp member
  obtain ⟨given, isGiven, found⟩ := List.mem_filterMap.mp isValued
  obtain ⟨value, -, rfl⟩ := Option.map_eq_some_iff.mp found
  exact ⟨rfl, labels given isGiven⟩

private theorem break_not_mem_comment {mark name text : Text} (plain : '\n' ∉ mark)
    (isName : isWord isNameChar name = true) (unbroken : '\n' ∉ text) :
    '\n' ∉ mark ++ name ++ ' ' :: text := by
  simp only [List.mem_append, List.mem_cons, not_or]
  exact ⟨⟨plain, break_not_mem_word (by decide) isName⟩, by decide, unbroken⟩

private theorem break_not_mem_lines {metric : Metric} (valid : metric.isValid = true) {line : Text}
    (member : line ∈ metric.lines) : '\n' ∉ line := by
  obtain ⟨isName, kind, helpText, labels⟩ := parts_of_isValid valid
  by_cases none : metric.valued = []
  · rw [Metric.lines, if_pos none] at member
    cases member
  · rw [lines_eq metric none] at member
    rcases List.mem_cons.mp member with rfl | member
    · exact break_not_mem_comment (by decide) isName helpText
    · rcases List.mem_cons.mp member with rfl | member
      · exact break_not_mem_comment (by decide) isName kind
      · obtain ⟨sample, given, rfl⟩ := List.mem_map.mp member
        obtain ⟨name, areLabels⟩ := labels sample given
        obtain ⟨-, -, -, unbroken⟩ := general_isLine sample.2
        exact break_not_mem_sample (by rw [name]; exact isName) areLabels unbroken

private theorem filter_lines {metric : Metric} (valid : metric.isValid = true) :
    metric.lines.filter isSample = metric.given.map lineOf := by
  obtain ⟨isName, -, -, labels⟩ := parts_of_isValid valid
  by_cases none : metric.valued = []
  · rw [Metric.lines, if_pos none, Metric.given, none]
    rfl
  · rw [lines_eq metric none, List.filter_cons_of_neg Bool.false_ne_true,
      List.filter_cons_of_neg Bool.false_ne_true]
    refine List.filter_eq_self.mpr fun line member => ?_
    obtain ⟨sample, given, rfl⟩ := List.mem_map.mp member
    exact isSample_written (by rw [(labels sample given).1]; exact isName) _ _

private theorem readSample_lineOf {metric : Metric} (valid : metric.isValid = true)
    {sample : (Text × Labels) × ℤ} (given : sample ∈ metric.given) :
    readSample (lineOf sample) = some (readBack sample) := by
  obtain ⟨isName, -, -, labels⟩ := parts_of_isValid valid
  obtain ⟨name, areLabels⟩ := labels sample given
  obtain ⟨nonempty, solid, noBrace, -⟩ := general_isLine sample.2
  exact readSample_written (by rw [name]; exact isName) areLabels nonempty solid noBrace
    (readNumber_general sample.2)

theorem readText_metrics {metrics : List Metric} (some : metrics.flatMap Metric.lines ≠ [])
    (valid : ∀ metric ∈ metrics, metric.isValid = true) :
    readText (['\n'].intercalate (metrics.flatMap Metric.lines) ++ ['\n']) =
      .some ((metrics.flatMap Metric.given).map readBack) := by
  rw [readText_lines some]
  · have lines : (metrics.flatMap Metric.lines).filter isSample =
        (metrics.flatMap Metric.given).map lineOf := by
      rw [List.filter_flatMap, List.map_flatMap]
      exact List.flatMap_congr fun metric member => filter_lines (valid metric member)
    rw [lines, List.mapM_map]
    refine mapM_eq_pure_map fun sample member => ?_
    obtain ⟨metric, isMetric, given⟩ := List.mem_flatMap.mp member
    exact readSample_lineOf (valid metric isMetric) given
  · intro line member
    obtain ⟨metric, isMetric, isLine⟩ := List.mem_flatMap.mp member
    exact break_not_mem_lines (valid metric isMetric) isLine

/-! ## All samples -/

private theorem counterMetric_given (counters : Counters) (name : Text) :
    ((counterMetric counters name).given).Perm (counters.entries.filter fun entry => entry.1.1 = name) := by
  have valued : ∀ samples : List (Labels × ℤ),
      (samples.map fun sample => (sample.1, some sample.2)).filterMap
        (fun sample => sample.2.map fun value => (sample.1, value)) = samples := by
    intro samples
    rw [List.filterMap_map]
    exact List.filterMap_some
  rw [Metric.given, Metric.valued, counterMetric, valued]
  refine ((List.perm_insertionSort _ _).map _).trans (.of_eq ?_)
  rw [List.map_map]
  refine (List.map_congr_left fun entry member => ?_).trans (List.map_id _)
  obtain ⟨-, same⟩ := List.mem_filter.mp member
  change ((name, entry.1.2), entry.2) = entry
  rw [← of_decide_eq_true same]

private theorem isValid_counterMetric {counters : Counters} {name : Text}
    (isName : isWord isNameChar name = true) : (counterMetric counters name).isValid = true := by
  have described : ∀ entry ∈ helpTexts, '\n' ∉ entry.2.1 ∧ '\n' ∉ entry.2.2 := by decide
  obtain ⟨kind, helpText⟩ : '\n' ∉ (counterMetric counters name).kind ∧
      '\n' ∉ (counterMetric counters name).helpText := by
    unfold counterMetric
    cases found : helpTexts.lookup name with
    | none =>
        have plain : '\n' ∉ "counter".toList := by decide
        exact ⟨plain, break_not_mem_word (by decide) isName⟩
    | some texts => exact described (name, texts) (OrderedDict.mem_of_lookup found)
  simp only [Metric.isValid, Bool.and_eq_true, Bool.not_eq_true', List.contains_eq_mem,
    decide_eq_false_iff_not, List.all_eq_true]
  refine ⟨⟨⟨isName, kind⟩, helpText⟩, fun sample member => ?_⟩
  obtain ⟨sorted, isSorted, rfl⟩ := List.mem_map.mp member
  obtain ⟨entry, isEntry, rfl⟩ := List.mem_map.mp ((List.mem_insertionSort _).mp isSorted)
  exact (counters.valid entry (List.mem_of_mem_filter isEntry)).2

private theorem flatMap_filter_perm {α β : Type} [DecidableEq β] (under : α → β) {parts : List β}
    (distinct : parts.Nodup) (values : List α) :
    (parts.flatMap fun part => values.filter fun value => under value = part).Perm
      (values.filter fun value => under value ∈ parts) := by
  induction parts with
  | nil => simp
  | cons part parts induction =>
      obtain ⟨new, distinct⟩ := List.nodup_cons.mp distinct
      have here : (values.filter fun value => under value ∈ part :: parts).filter
          (fun value => under value = part) = values.filter fun value => under value = part := by
        rw [List.filter_filter]
        refine List.filter_congr fun value _ => ?_
        by_cases same : under value = part <;> simp [same]
      have others : (values.filter fun value => under value ∈ part :: parts).filter
          (fun value => !decide (under value = part)) = values.filter fun value => under value ∈ parts := by
        rw [List.filter_filter]
        refine List.filter_congr fun value _ => ?_
        by_cases same : under value = part
        · simp [same, new]
        · simp [same]
      rw [List.flatMap_cons]
      refine ((induction distinct).append_left _).trans ?_
      rw [← here, ← others]
      exact List.filter_append_perm _ _

private theorem flatMap_filter_perm_self {α β : Type} [DecidableEq β] (under : α → β) {parts : List β}
    (distinct : parts.Nodup) {values : List α} (every : ∀ value ∈ values, under value ∈ parts) :
    (parts.flatMap fun part => values.filter fun value => under value = part).Perm values :=
  (flatMap_filter_perm under distinct values).trans
    (.of_eq (List.filter_eq_self.mpr fun value member => decide_eq_true (every value member)))

theorem counterMetrics_given (counters : Counters) :
    ((counterMetrics counters).flatMap Metric.given).Perm counters.entries := by
  rw [counterMetrics, List.flatMap_map]
  refine (List.Perm.flatMap_left _ fun name _ => counterMetric_given counters name).trans ?_
  refine flatMap_filter_perm_self (fun entry : (Text × Labels) × ℤ => entry.1.1) ?_ fun entry member => ?_
  · exact (List.perm_insertionSort _ _).nodup_iff.mpr (nodup_fromKeys _)
  · exact (List.mem_insertionSort _).mpr (mem_fromKeys.mpr (List.mem_map_of_mem member))

theorem isValid_counterMetrics {counters : Counters} {metric : Metric}
    (member : metric ∈ counterMetrics counters) : metric.isValid = true := by
  obtain ⟨name, isName, rfl⟩ := List.mem_map.mp member
  obtain ⟨entry, isEntry, rfl⟩ :=
    List.mem_map.mp (mem_fromKeys.mp ((List.mem_insertionSort _).mp isName))
  exact isValid_counterMetric (counters.valid entry isEntry).1

/-- A scrape is told exactly if each of its values has at most six significant digits. -/
theorem render_told_iff (scrape : Scrape) :
    Told scrape ↔ ∀ sample ∈ scrape.given, Short sample.2 := by
  have read : readText (render scrape.readings scrape.counters) =
      some (((gauges scrape.readings ++ counterMetrics scrape.counters).flatMap Metric.given).map
        readBack) := by
    refine readText_metrics (List.cons_ne_nil _ _) fun metric member => ?_
    rcases List.mem_append.mp member with isGauge | isCounter
    · exact isValid_gauges isGauge
    · exact isValid_counterMetrics isCounter
  have given : ((gauges scrape.readings ++ counterMetrics scrape.counters).flatMap Metric.given).Perm
      scrape.given := by
    rw [List.flatMap_append]
    exact (counterMetrics_given scrape.counters).append_left _
  constructor
  · rintro ⟨samples, same, told⟩ sample member
    rw [read] at same
    obtain rfl := Option.some.inj same
    have back := (told.symm.trans (given.map readBack)).subset (List.mem_map_of_mem member)
    obtain ⟨other, -, equal⟩ := List.mem_map.mp back
    have value : (sixDigits other.2 : ℚ) = (sample.2 : ℚ) := congrArg Sample.value equal
    rw [← Int.cast_injective value]
    exact short_sixDigits other.2
  · intro short
    refine ⟨_, read, (given.map readBack).trans (.of_eq ?_)⟩
    refine List.map_congr_left fun sample member => ?_
    rw [readBack, sixDigits_of_short (short sample member)]

/-! ## A clock that stands still -/

/-- An instance whose scheduler ran last on a day in November. -/
def november : Readings where
  version := "1.0".toList
  totalMonitors := none
  enabledMonitors := none
  dueMonitors := none
  totalScans := none
  uniqueDomains := none
  runningJobs := none
  events := []
  verified := 0
  tokens := 0
  totalRuns := none
  lastRunDurationMs := none
  lastRunProcessed := none
  lastRunErrors := none
  lastRunAt := some 1763548800
  whole := fun _ none => by cases none

private theorem november_small :
    ∀ sample ∈ gaugeSamples november ++ Counters.empty.entries, sample.2.natAbs < 2 ^ 53 := by
  decide +kernel

/-- Its scrape, before anything is counted. -/
def novemberScrape : Scrape where
  readings := november
  counters := .empty
  small := november_small

/-- The time of the last run is told as another time. -/
theorem last_run_rounded : ¬ Told novemberScrape := by
  rintro ⟨samples, read, told⟩
  have lost : ∀ sample ∈ (readText (render november .empty)).getD [], sample.value ≠ 1763548800 := by
    decide +kernel
  have given : asSample (("domainlens_scheduler_last_run_timestamp_seconds".toList, []), 1763548800) ∈
      novemberScrape.given.map asSample := by
    decide +kernel
  change readText (render november .empty) = some samples at read
  rw [read] at lost
  exact lost _ (told.symm.subset given) rfl

end Metrics
end DomainLens
