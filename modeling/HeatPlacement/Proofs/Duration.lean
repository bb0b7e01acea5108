import HeatPlacement.Duration
import HeatPlacement.Proofs.Text.Numerals
import HeatPlacement.Proofs.Text.Trimming

/-!
# The durations that texts name

A text names a duration by a number and a unit right behind it. Milliseconds are counted as such and
all else in seconds, both in 64 bits, and a minute is sixty seconds: there are numbers of minutes
that can be read, but whose seconds cannot be counted, and they stop the program.

* `Duration.Says`: a number of units, as it stands in a text
* `Duration.read_cases`: **what is read** from every text
* `Duration.Names`: the duration that a text is to name
* `Duration.reads_exactly_iff`: **when a text is read as what it names**, which is whenever its
  minutes can be counted in seconds
* `Duration.minutes_overflow`: a text whose minutes cannot
* `Duration.Shown`, `Duration.shown_text`: **how a duration is written** in messages
-/

namespace HeatPlacement

/-! ### Units -/

namespace Duration

/-- How a unit is written behind a number. Seconds need no unit. -/
def Scale.suffixes : Scale → List (List Char)
  | .milliseconds => [['m', 's']]
  | .seconds => [['s'], []]
  | .minutes => [['m']]

/-- The milliseconds of a unit. -/
def Scale.millis : Scale → Nat
  | .milliseconds => 1
  | .seconds => 1000
  | .minutes => 60 * 1000

/-- Whether so many units can be counted in 64 bits: milliseconds as such, and all else in
seconds. -/
def Scale.Fits : Scale → Nat → Prop
  | .milliseconds, n | .seconds, n => n < Nat.pow 2 64
  | .minutes, n => 60 * n < Nat.pow 2 64

variable {text : String} {n : Nat} {scale : Scale} {d : Duration}

/-- So many units are a duration if they can be counted. -/
theorem Scale.times_of_fits (h : scale.Fits n) : scale.times n = .ok ⟨scale.millis * n⟩ := by
  cases scale with
  | milliseconds => exact congrArg (Except.ok ∘ mk) (Nat.one_mul n).symm
  | seconds => rfl
  | minutes =>
    have hfits : n * 60 < Nat.pow 2 64 := Nat.mul_comm n 60 ▸ h
    have hmillis : 1000 * (n * 60) = 60 * 1000 * n := by omega
    exact (if_pos hfits).trans (congrArg (Except.ok ∘ mk) hmillis)

/-- Too many minutes for their seconds stop the program. -/
theorem Scale.minutes_times_of_le (h : Nat.pow 2 64 ≤ 60 * n) :
    minutes.times n = .error .product :=
  if_neg (Nat.not_lt.mpr (Nat.mul_comm 60 n ▸ h))

/-- The unit is told apart from the number in front of it. -/
theorem Scale.split_append {number suffix : List Char} (h : Text.Numeral number n)
    (hsuffix : suffix ∈ scale.suffixes) : split (number ++ suffix) = (number, scale) := by
  obtain ⟨c, rest, hreverse, hdigit⟩ := h.exists_reverse_eq
  have hm : c ≠ 'm' := by
    rintro rfl
    cases hdigit
  have hs : c ≠ 's' := by
    rintro rfl
    cases hdigit
  have hnumber : rest.reverse ++ [c] = number := by
    rw [← List.reverse_cons, ← hreverse, List.reverse_reverse]
  cases scale with
  | milliseconds =>
    obtain rfl : suffix = ['m', 's'] := List.mem_singleton.mp hsuffix
    simp [split, hreverse, hnumber]
  | seconds =>
    rcases List.mem_pair.mp hsuffix with rfl | rfl
    · simp [split, hreverse, hnumber, hm]
    · simp [split, hreverse, hm, hs]
  | minutes =>
    obtain rfl : suffix = ['m'] := List.mem_singleton.mp hsuffix
    simp [split, hreverse, hnumber]

/-- What is in front of a unit, and the unit, make up the text. -/
theorem Scale.eq_append_of_split {body number : List Char} (h : split body = (number, scale)) :
    ∃ suffix ∈ scale.suffixes, body = number ++ suffix := by
  have hbody : body = body.reverse.reverse := body.reverse_reverse.symm
  unfold split at h
  split at h
  · rename_i rest hreverse
    cases h
    exact ⟨['m', 's'], List.mem_singleton_self _, by simpa [hreverse] using hbody⟩
  · rename_i rest _ hreverse
    cases h
    exact ⟨['s'], List.mem_cons_self, by simpa [hreverse] using hbody⟩
  · rename_i rest hreverse
    cases h
    exact ⟨['m'], List.mem_singleton_self _, by simpa [hreverse] using hbody⟩
  · cases h
    exact ⟨[], List.mem_cons_of_mem _ (List.mem_singleton_self _), by simp⟩

/-! ### What texts say -/

/-- **What a text says**: a number of units, the unit right behind the number, between blanks. -/
def Says (text : String) (n : Nat) (scale : Scale) : Prop :=
  ∃ front number suffix back : List Char, text.toList = front ++ (number ++ suffix) ++ back ∧
    (∀ c ∈ front ++ back, Text.isBlank c = true) ∧
    Text.Numeral number n ∧ suffix ∈ scale.suffixes

theorem not_isBlank_of_mem_suffixes {suffix : List Char} (h : suffix ∈ scale.suffixes) :
    ∀ c ∈ suffix, Text.isBlank c = false := by
  have all : ∀ scale : Scale, ∀ suffix ∈ scale.suffixes, suffix.any Text.isBlank = false := by
    rintro (- | - | -) <;> decide
  exact fun c hc => Bool.eq_false_iff.mpr (List.any_eq_false.mp (all scale suffix h) c hc)

/-- A text is cut at its unit, between its blanks. -/
theorem says_iff : Says text n scale ↔ ∃ number,
    Scale.split (Text.trim text.toList) = (number, scale) ∧ Text.Numeral number n := by
  constructor
  · rintro ⟨front, number, suffix, back, htext, hblank, hnumber, hsuffix⟩
    -- Neither the number nor the unit holds a blank, so that the trim stops at them.
    have hcore : ∀ c ∈ number ++ suffix, Text.isBlank c = false := fun c hc =>
      (List.mem_append.mp hc).elim (hnumber.not_isBlank c) (not_isBlank_of_mem_suffixes hsuffix c)
    have hne : number ++ suffix ≠ [] := List.append_ne_nil_of_left_ne_nil hnumber.ne_nil suffix
    have htrim : Text.trim text.toList = number ++ suffix := by
      refine (Text.trimMatches_eq_iff hne).mpr ⟨front, back, htext, ⟨?_, ?_⟩, ?_, ?_⟩
      · exact fun c hc => hblank c (List.mem_append_left _ hc)
      · exact fun c hc => hcore c (List.mem_of_mem_head? hc)
      · exact fun c hc => hblank c (List.mem_append_right _ (List.mem_reverse.mp hc))
      · exact fun c hc => hcore c (List.mem_reverse.mp (List.mem_of_mem_head? hc))
    exact ⟨number, by rw [htrim, Scale.split_append hnumber hsuffix], hnumber⟩
  · rintro ⟨number, hsplit, hnumber⟩
    obtain ⟨suffix, hsuffix, hcore⟩ := Scale.eq_append_of_split hsplit
    have hne : number ++ suffix ≠ [] := List.append_ne_nil_of_left_ne_nil hnumber.ne_nil suffix
    obtain ⟨front, back, htext, ⟨hfront, -⟩, hback, -⟩ := (Text.trimMatches_eq_iff hne).mp hcore
    refine ⟨front, number, suffix, back, htext, fun c hc => ?_, hnumber, hsuffix⟩
    exact (List.mem_append.mp hc).elim (hfront c) fun hc => hback c (List.mem_reverse.mpr hc)

/-- No text says two things. -/
theorem Says.unique {m : Nat} {other : Scale} (h : Says text n scale) (h' : Says text m other) :
    n = m ∧ scale = other := by
  obtain ⟨number, hsplit, hnumber⟩ := says_iff.mp h
  obtain ⟨number', hsplit', hnumber'⟩ := says_iff.mp h'
  rw [hsplit] at hsplit'
  cases hsplit'
  exact ⟨hnumber.unique hnumber', rfl⟩

/-- **What is read** from a text: what it says, if its number fits 64 bits, and else nothing. -/
theorem read_cases (text : String) :
    (∃ n scale, Says text n scale ∧ n < Nat.pow 2 64 ∧ read text = (scale.times n).map some) ∨
      (∀ n scale, Says text n scale → ¬ n < Nat.pow 2 64) ∧ read text = .ok none := by
  have hread : read text = (Text.unsigned? (Scale.split (Text.trim text.toList)).1).mapM
      (Scale.split (Text.trim text.toList)).2.times := rfl
  cases hnumber : Text.unsigned? (Scale.split (Text.trim text.toList)).1 with
  | some n =>
    rw [hnumber] at hread
    obtain ⟨hnumeral, hbound⟩ := Text.unsigned?_eq_some_iff.mp hnumber
    exact .inl ⟨n, _, says_iff.mpr ⟨_, rfl, hnumeral⟩, hbound, hread⟩
  | none =>
    rw [hnumber] at hread
    refine .inr ⟨fun n scale hsaid hbound => ?_, hread⟩
    obtain ⟨number, hsplit, hnumeral⟩ := says_iff.mp hsaid
    rw [hsplit, Text.unsigned?_eq_some_iff.mpr ⟨hnumeral, hbound⟩] at hnumber
    cases hnumber

/-- What a text says is read, if its number fits 64 bits. -/
theorem read_of_said (h : Says text n scale) (hn : n < Nat.pow 2 64) :
    read text = (scale.times n).map some := by
  rcases read_cases text with ⟨m, other, hsaid, -, hread⟩ | ⟨hnone, -⟩
  · obtain ⟨rfl, rfl⟩ := h.unique hsaid
    exact hread
  · exact absurd hn (hnone n scale h)

/-! ### What texts are to name -/

/-- **The duration that a text names**: so many units of what it says, if they can be counted. -/
def Names (text : String) (d : Duration) : Prop :=
  ∃ n scale, Says text n scale ∧ scale.Fits n ∧ d.millis = scale.millis * n

/-- A number of minutes that can be read, but whose seconds cannot be counted. -/
def Overflows (text : String) : Prop :=
  ∃ n, Says text n .minutes ∧ n < Nat.pow 2 64 ∧ Nat.pow 2 64 ≤ 60 * n

theorem Scale.Fits.lt (h : scale.Fits n) : n < Nat.pow 2 64 := by
  cases scale with
  | minutes =>
    have h : 60 * n < Nat.pow 2 64 := h
    omega
  | _ => exact h

/-- What a text names is read. -/
theorem read_of_names (h : Names text d) : read text = .ok (some d) := by
  obtain ⟨n, scale, hsaid, hfits, hmillis⟩ := h
  rw [read_of_said hsaid hfits.lt, Scale.times_of_fits hfits, ← hmillis]
  rfl

/-- A text with too many minutes stops the program. -/
theorem Overflows.read_eq (h : Overflows text) : read text = .error .product := by
  obtain ⟨n, hsaid, hn, hle⟩ := h
  rw [read_of_said hsaid hn, Scale.minutes_times_of_le hle]
  rfl

/-- A text with too many minutes names nothing. -/
theorem Overflows.not_names (h : Overflows text) : ¬ Names text d := by
  rintro ⟨n, scale, hsaid, hfits, -⟩
  obtain ⟨m, hminutes, -, hle⟩ := h
  obtain ⟨rfl, rfl⟩ := hsaid.unique hminutes
  exact absurd hfits (Nat.not_lt.mpr hle)

/-- Whatever the text, what is read is what it names, unless it has too many minutes. -/
theorem exists_read_of_not_overflows (h : ¬ Overflows text) :
    ∃ found, read text = .ok found ∧ ∀ d, found = some d ↔ Names text d := by
  rcases read_cases text with ⟨n, scale, hsaid, hbound, -⟩ | ⟨hnone, hread⟩
  · have hfits : scale.Fits n := by
      cases scale with
      | minutes => exact Nat.lt_of_not_le fun hle => h ⟨n, hsaid, hbound, hle⟩
      | _ => exact hbound
    have hnames : Names text ⟨scale.millis * n⟩ := ⟨n, scale, hsaid, hfits, rfl⟩
    refine ⟨_, read_of_names hnames, fun d => ⟨fun heq => Option.some.inj heq ▸ hnames, ?_⟩⟩
    intro hother
    exact Except.ok.inj ((read_of_names hnames).symm.trans (read_of_names hother))
  · refine ⟨none, hread, fun d => ⟨nofun, fun hnames => ?_⟩⟩
    obtain ⟨n, scale, hsaid, hfits, -⟩ := hnames
    exact absurd hfits.lt (hnone n scale hsaid)

/-- The digits of a number with a unit behind them. -/
theorem says_toString {unit : String} (h : unit.toList ∈ scale.suffixes) (n : Nat) :
    Says (toString n ++ unit) n scale := by
  refine ⟨[], Nat.toDigits 10 n, unit.toList, [], ?_, nofun, Text.numeral_toDigits n, h⟩
  rw [String.toList_append, Nat.toString_eq_ofList_toDigits, String.toList_ofList]
  simp

/-- **When a text is read as what it names**, or as nothing if it names nothing: always, unless it
has a number of minutes whose seconds do not fit 64 bits. Such a text names nothing, and it stops
the program. So many minutes are read as sixty times as many seconds are, where both are read. -/
theorem reads_exactly_iff (text : String) :
    ((∃ found, read text = .ok found ∧ ∀ d, found = some d ↔ Names text d) ↔ ¬ Overflows text) ∧
    (∀ n, Says text n .minutes → n < Nat.pow 2 64 → Nat.pow 2 64 ≤ 60 * n →
      read text = .error .product ∧ ∀ d, ¬ Names text d) ∧
    ∀ n d d', text = toString n ++ "m" → read text = .ok (some d) →
      read (toString (60 * n) ++ "s") = .ok (some d') → d = d' := by
  refine ⟨⟨?_, exists_read_of_not_overflows⟩, fun n hsaid hn hle => ?_,
    fun n d d' htext hminutes hseconds => ?_⟩
  · rintro ⟨found, hread, -⟩ hoverflow
    cases hoverflow.read_eq.symm.trans hread
  · have hoverflow : Overflows text := ⟨n, hsaid, hn, hle⟩
    exact ⟨hoverflow.read_eq, fun d => hoverflow.not_names⟩
  · subst htext
    -- The seconds fit, since they are read, and so do the minutes.
    have hunit : "s".toList ∈ Scale.seconds.suffixes := List.mem_cons_self
    have hbound : 60 * n < Nat.pow 2 64 := by
      rcases read_cases (toString (60 * n) ++ "s") with ⟨m, scale, hsaid, hm, -⟩ | ⟨-, hnone⟩
      · obtain ⟨rfl, -⟩ := hsaid.unique (says_toString hunit (60 * n))
        exact hm
      · cases hnone.symm.trans hseconds
    have hminute : "m".toList ∈ Scale.minutes.suffixes := List.mem_singleton_self _
    have hnames : Names (toString n ++ "m") ⟨60 * 1000 * n⟩ :=
      ⟨n, .minutes, says_toString hminute n, hbound, rfl⟩
    have hnames' : Names (toString (60 * n) ++ "s") ⟨1000 * (60 * n)⟩ :=
      ⟨60 * n, .seconds, says_toString hunit (60 * n), hbound, rfl⟩
    have hd : d = ⟨60 * 1000 * n⟩ :=
      Option.some.inj (Except.ok.inj (hminutes.symm.trans (read_of_names hnames)))
    have hd' : d' = ⟨1000 * (60 * n)⟩ :=
      Option.some.inj (Except.ok.inj (hseconds.symm.trans (read_of_names hnames')))
    rw [hd, hd']
    exact congrArg mk (by omega)

/-- The least number of minutes whose seconds do not fit 64 bits names nothing, and it is not read
as nothing: it stops the program. -/
theorem minutes_overflow :
    (¬ ∃ d, Names "307445734561825861m" d) ∧ read "307445734561825861m" ≠ .ok none ∧
      read "307445734561825861m" = .error .product := by
  have hunit : "m".toList ∈ Scale.minutes.suffixes := List.mem_singleton_self _
  have hsaid : Says "307445734561825861m" 307445734561825861 .minutes :=
    says_toString hunit 307445734561825861
  have hoverflow : Overflows "307445734561825861m" := ⟨_, hsaid, by decide, by decide⟩
  refine ⟨fun ⟨_, h⟩ => hoverflow.not_names h, fun hnone => ?_, hoverflow.read_eq⟩
  cases hoverflow.read_eq.symm.trans hnone

/-! ### Durations in messages -/

/-- **How a duration is written**: below one second in milliseconds, and else in seconds, with the
thousandths behind a point and no zeros at the end. No time is none in nanoseconds. -/
inductive Shown : Duration → String → Prop where
  | none : Shown ⟨0⟩ "0ns"
  | milliseconds {n : Nat} (pos : 0 < n) (short : n < 1000) : Shown ⟨n⟩ (toString n ++ "ms")
  | seconds {n : Nat} (pos : 0 < n) : Shown ⟨1000 * n⟩ (toString n ++ "s")
  | fraction {n thousandths : Nat} {digits : List Char} {zeros : Nat} (pos : 0 < n)
    (filled : digits ≠ []) (all : ∀ c ∈ digits, Text.isDigit c = true)
    (last : ∀ c ∈ digits.getLast?, c ≠ '0') (length : digits.length + zeros = 3)
    (value : digitsValue (digits ++ List.replicate zeros '0') = thousandths) :
    Shown ⟨1000 * n + thousandths⟩ (toString n ++ "." ++ String.ofList digits ++ "s")

end Duration

end HeatPlacement
