import HeatPlacement.Proofs.Text.Numerals
import HeatPlacement.Proofs.Text.Trimming
import HeatPlacement.Toml.Document
import HeatPlacement.Toml.Printer
import HeatPlacement.Toml.Quoted.Lemmas

/-!
# Values that are read back

A value is spelled as a quoted text, as a word of digits or letters, or as a list of quoted texts.
The reader takes it off the input up to a line end.

* `ofWord?_toDigits`: a word of digits is an integer, neither a moment nor a float
* `value?_quoted`: a quoted text is read at every level of brackets
* `Listed`: the spellings of a list of texts, and `Listed.items?_append`: they are read as such
* `Setting.Spelled`: the spellings of a value, and `Setting.spelled_render`: the written one is one
* `value?_spelled`: **a spelling of a value is read as that value**
-/

namespace HeatPlacement.Toml

open Text (isDigit Peels)

/-! ### Words of digits -/

theorem isWordChar_of_isDigit {c : Char} (h : isDigit c = true) : isWordChar c = true := by
  simp [isWordChar, h]

theorem eq_drop_of_numberWithin? {count low high n : Nat} {text rest : List Char}
    (h : numberWithin? count low high text = some (n, rest)) : rest = text.drop count := by
  simp only [numberWithin?] at h
  split at h
  · exact (Prod.mk.inj (Option.some.inj h)).2.symm
  · cases h

section Digits

variable {word : List Char} (hall : ∀ c ∈ word, isDigit c = true)

include hall

theorem digits_ne {other : List Char} {c : Char} (hc : c ∈ other) (hother : isDigit c = false) :
    word ≠ other := by
  rintro rfl
  exact Bool.false_ne_true (hother.symm.trans (hall c hc))

theorem after?_digits {mark : Char} (hmark : isDigit mark = false) : after? mark word = none := by
  cases word with
  | nil => rfl
  | cons c rest =>
    have hne : mark ≠ c := by
      rintro rfl
      exact Bool.false_ne_true (hmark.symm.trans (hall mark List.mem_cons_self))
    rw [after?, if_neg hne]

/-- No date begins with digits only: its year has a hyphen behind it. -/
theorem date?_digits : date? word = none := by
  cases hyear : numberWithin? 4 0 9999 word with
  | none => simp [date?, hyear]
  | some found =>
    have hrest : after? '-' found.2 = none := by
      rw [eq_drop_of_numberWithin? hyear]
      exact after?_digits (fun c hc => hall c (List.mem_of_mem_drop hc)) (by decide)
    simp [date?, hyear, hrest]

/-- No time begins with digits only: its hours have a colon behind them. -/
theorem time?_digits : time? word = none := by
  cases hhours : numberWithin? 2 0 23 word with
  | none => simp [time?, hhours]
  | some found =>
    have hrest : after? ':' found.2 = none := by
      rw [eq_drop_of_numberWithin? hhours]
      exact after?_digits (fun c hc => hall c (List.mem_of_mem_drop hc)) (by decide)
    simp [time?, hhours, hrest]

theorem isMoment_digits : isMoment word = false := by
  rw [isMoment, date?_digits hall, time?_digits hall]
  rfl

theorem splitSign_digits : splitSign word = (false, word) := by
  unfold splitSign
  split
  · exact absurd (hall '-' List.mem_cons_self) (by decide)
  · exact absurd (hall '+' List.mem_cons_self) (by decide)
  · rfl

/-- A float has a point or an exponent. -/
theorem floatParts?_digits : floatParts? word = none := by
  have hpeels : Peels (fun c => c != '.' && !(c == 'e' || c == 'E')) word [] := by
    refine ⟨fun c hc => ?_, fun c hc => by cases hc⟩
    have hpoint : c ≠ '.' := by rintro rfl; exact absurd (hall '.' hc) (by decide)
    have hlower : c ≠ 'e' := by rintro rfl; exact absurd (hall 'e' hc) (by decide)
    have hupper : c ≠ 'E' := by rintro rfl; exact absurd (hall 'E' hc) (by decide)
    simp [hpoint, hlower, hupper]
  have hspan := hpeels.span_eq
  rw [List.append_nil] at hspan
  simp only [floatParts?, hspan]
  cases wholeDigits? word <;> rfl

theorem isFloat_digits : isFloat word = false := by
  have hinf : word ≠ "inf".toList := digits_ne hall (c := 'i') (by decide) (by decide)
  have hnan : word ≠ "nan".toList := digits_ne hall (c := 'n') (by decide) (by decide)
  simp only [isFloat, splitSign_digits hall, floatParts?_digits hall, beq_false_of_ne hinf,
    beq_false_of_ne hnan, Bool.or_self, Bool.false_eq_true, if_false]

theorem ungroup?_digits {behindDigit : Bool} (h : behindDigit = true ∨ word ≠ []) :
    ungroup? isDigit behindDigit word = some word := by
  induction word generalizing behindDigit with
  | nil =>
    obtain rfl : behindDigit = true := by simpa using h
    rfl
  | cons c rest ih =>
    have hrest := ih (fun d hd => hall d (List.mem_cons_of_mem c hd)) (.inl rfl)
    rw [ungroup?, if_pos (hall c List.mem_cons_self), hrest, Option.map_some]

end Digits

theorem wholeDigits?_toDigits (n : Nat) :
    wholeDigits? (Nat.toDigits 10 n) = some (Nat.toDigits 10 n) := by
  rcases Nat.eq_zero_or_pos n with rfl | hpos
  · rfl
  · obtain ⟨c, digits, heq, hc⟩ := Text.exists_toDigits_eq_cons hpos
    have hungroup : ungroup? isDigit false (Nat.toDigits 10 n) = some (Nat.toDigits 10 n) :=
      ungroup?_digits (fun _ => Text.isDigit_of_mem_toDigits) (.inr Nat.toDigits_ne_nil)
    rw [heq] at hungroup ⊢
    unfold wholeDigits?
    split
    · rename_i hzero
      exact absurd (List.cons.inj hzero).1 hc
    · exact hungroup

/-- The digits of a number of 63 bits are an integer. -/
theorem integer?_toDigits {n : Nat} (h : n < Nat.pow 2 63) :
    integer? (Nat.toDigits 10 n) = some (n : Int) := by
  have hall : ∀ c ∈ Nat.toDigits 10 n, isDigit c = true := fun _ => Text.isDigit_of_mem_toDigits
  unfold integer?
  split
  · rename_i heq
    exact absurd (hall 'x' (by simp [heq])) (by decide)
  · rename_i heq
    exact absurd (hall 'o' (by simp [heq])) (by decide)
  · rename_i heq
    exact absurd (hall 'b' (by simp [heq])) (by decide)
  · simp [splitSign_digits hall, wholeDigits?_toDigits, h]

/-- A word of digits is an integer, neither a moment nor a float. -/
theorem ofWord?_toDigits {n : Nat} (h : n < Nat.pow 2 63) :
    Value.ofWord? (Nat.toDigits 10 n) = some (.integer n) := by
  have hall : ∀ c ∈ Nat.toDigits 10 n, isDigit c = true := fun _ => Text.isDigit_of_mem_toDigits
  have htrue : Nat.toDigits 10 n ≠ "true".toList :=
    digits_ne hall (c := 't') (by decide) (by decide)
  have hfalse : Nat.toDigits 10 n ≠ "false".toList :=
    digits_ne hall (c := 'f') (by decide) (by decide)
  rw [Value.ofWord?, if_neg htrue, if_neg hfalse, isMoment_digits hall, isFloat_digits hall,
    integer?_toDigits h]
  rfl

/-! ### Layout -/

/-- A character that no reader skips: neither layout nor a line end, nor the start of a comment,
nor a byte order mark. -/
def Solid (c : Char) : Prop :=
  c ≠ '\n' ∧ c ≠ '\r' ∧ c ≠ '#' ∧ c ≠ '\ufeff' ∧ Quoted.isLayout c = false

instance (c : Char) : Decidable (Solid c) := inferInstanceAs (Decidable (_ ∧ _ ∧ _ ∧ _ ∧ _))

theorem skipBlanks_cons {c : Char} (h : Solid c) (rest : List Char) :
    skipBlanks (c :: rest) = c :: rest :=
  List.dropWhile_cons_of_neg (by simp [h.2.2.2.2])

theorem skipLayout_cons {c : Char} (h : Solid c) (rest : List Char) :
    skipLayout false (c :: rest) = c :: rest := by
  obtain ⟨hline, hreturn, hcomment, -, hlayout⟩ := h
  simp [skipLayout, hline, hreturn, hcomment, hlayout]

/-- Blanks and line ends. -/
def Layout (text : List Char) : Prop := ∀ c ∈ text, Quoted.isLayout c = true ∨ c = '\n'

theorem layout_nil : Layout [] := nofun

theorem layout_iff {text : List Char} :
    Layout text ↔ text.all (fun c => Quoted.isLayout c || c == '\n') = true := by
  simp [Layout]

theorem skipLayout_append {layout : List Char} (h : Layout layout) {c : Char} (hc : Solid c)
    (rest : List Char) : skipLayout false (layout ++ c :: rest) = c :: rest := by
  induction layout with
  | nil => exact skipLayout_cons hc rest
  | cons d layout ih =>
    obtain ⟨hd, hlayout⟩ := List.forall_mem_cons.mp h
    have hskip : skipLayout false (d :: (layout ++ c :: rest)) =
        skipLayout false (layout ++ c :: rest) := by
      rcases hd with hd | rfl
      · rcases Bool.or_eq_true_iff.mp hd with hd | hd <;> obtain rfl := beq_iff_eq.mp hd <;> rfl
      · rfl
    rw [List.cons_append, hskip, ih hlayout]

/-- No quote follows where layout and a mark do. -/
theorem open_layout {layout : List Char} (h : Layout layout) {q mark : Char}
    (hq : Quoted.isLayout q = false ∧ q ≠ '\n') (hmark : mark ≠ q) (rest : List Char) :
    Quoted.Open q (layout ++ mark :: rest) := by
  cases layout with
  | nil => exact Quoted.open_cons.mpr hmark
  | cons c layout =>
    refine Quoted.open_cons.mpr ?_
    rintro rfl
    rcases h c List.mem_cons_self with hc | hc
    · exact Bool.false_ne_true (hq.1.symm.trans hc)
    · exact hq.2 hc

/-! ### Quoted texts -/

section Quoted

variable {text : String} {quoted : List Char} (h : Quoted.Quotes text.toList quoted)

include h

/-- A quoted text is read at every level of brackets, if no quote follows. -/
theorem value?_quoted (levels : Nat) {rest : List Char} (hd : Quoted.Open '"' rest)
    (hs : Quoted.Open '\'' rest) : value? levels (quoted ++ rest) = some (.text text, rest) := by
  have hdecode := h.decode_append hd hs
  obtain ⟨q, tail, rfl, hq⟩ := h.exists_eq_cons
  rw [List.cons_append] at hdecode ⊢
  have hplain : plain? (q :: (tail ++ rest)) = some (.text text, rest) := by
    rcases hq with rfl | rfl <;> simp [plain?, hdecode]
  cases levels with
  | zero => exact hplain
  | succ levels => rcases hq with rfl | rfl <;> exact hplain

theorem skipLayout_quoted {layout : List Char} (hlayout : Layout layout) (rest : List Char) :
    skipLayout false (layout ++ (quoted ++ rest)) = quoted ++ rest := by
  obtain ⟨q, tail, rfl, hq⟩ := h.exists_eq_cons
  refine skipLayout_append hlayout ?_ _
  rcases hq with rfl | rfl <;> decide

/-- A text in a list is read as an item. The mark behind it says whether others follow. -/
theorem items?_quoted (levels count : Nat) {before behind : List Char} (hbefore : Layout before)
    (hbehind : Layout behind) {mark : Char} (hmark : Solid mark) (hd : mark ≠ '"')
    (hs : mark ≠ '\'') (rest : List Char) :
    items? (value? levels) (count + 1) (before ++ (quoted ++ (behind ++ mark :: rest))) =
      if mark = ',' then
        (items? (value? levels) count rest).map fun (items, rest) => (.text text :: items, rest)
      else if mark = ']' then some ([.text text], rest)
      else none := by
  have hskip := skipLayout_quoted h hbefore (behind ++ mark :: rest)
  have hvalue := value?_quoted h levels (open_layout hbehind (by decide) hd rest)
    (open_layout hbehind (by decide) hs rest)
  obtain ⟨q, tail, rfl, hq⟩ := h.exists_eq_cons
  have hne : q ≠ ']' := by rcases hq with rfl | rfl <;> decide
  rw [List.cons_append] at hskip hvalue ⊢
  simp only [items?, hskip]
  split
  · rename_i hclose
    exact absurd (List.cons.inj hclose).1 hne
  · simp only [hvalue, skipLayout_append hbehind hmark, Option.bind_eq_bind, Option.bind_some]
    by_cases hcomma : mark = ','
    · subst hcomma
      simp only [if_true]
      cases items? (value? levels) count rest <;> rfl
    · by_cases hclose : mark = ']'
      · subst hclose
        rfl
      · simp [hcomma, hclose]

end Quoted

/-! ### Lists of texts -/

/-- **The spellings of a list of texts** behind the opening bracket: quoted texts with a comma
between two of them, and layout around them. There may be a comma behind the last one as well. -/
inductive Listed : List String → List Char → Prop where
  | nil {layout : List Char} (h : Layout layout) : Listed [] (layout ++ [']'])
  | last {item : String} {before quoted behind : List Char} (hbefore : Layout before)
    (h : Quoted.Quotes item.toList quoted) (hbehind : Layout behind) :
    Listed [item] (before ++ (quoted ++ (behind ++ [']'])))
  | cons {item : String} {before quoted behind : List Char} (hbefore : Layout before)
    (h : Quoted.Quotes item.toList quoted) (hbehind : Layout behind) {items : List String}
    {spelling : List Char} : Listed items spelling →
      Listed (item :: items) (before ++ (quoted ++ (behind ++ ',' :: spelling)))

namespace Listed

variable {items : List String} {spelling : List Char}

/-- A list of texts is read up to its closing bracket. -/
theorem items?_append (h : Listed items spelling) (levels : Nat) {count : Nat}
    (hcount : items.length < count) (rest : List Char) :
    items? (value? levels) count (spelling ++ rest) = some (items.map .text, rest) := by
  induction h generalizing count with
  | nil hlayout =>
    obtain ⟨count, rfl⟩ := Nat.exists_eq_add_one_of_ne_zero (Nat.ne_of_gt hcount)
    rw [List.append_assoc, List.singleton_append, items?,
      skipLayout_append hlayout (by decide) rest]
    rfl
  | last hbefore hquotes hbehind =>
    obtain ⟨count, rfl⟩ := Nat.exists_eq_add_one_of_ne_zero
      (Nat.ne_of_gt (Nat.zero_lt_of_lt hcount))
    simp only [List.append_assoc, List.singleton_append]
    exact items?_quoted hquotes levels count hbefore hbehind (by decide) (by decide) (by decide) _
  | cons hbefore hquotes hbehind _ ih =>
    obtain ⟨count, rfl⟩ := Nat.exists_eq_add_one_of_ne_zero
      (Nat.ne_of_gt (Nat.zero_lt_of_lt hcount))
    simp only [List.append_assoc, List.cons_append]
    rw [items?_quoted hquotes levels count hbefore hbehind (by decide) (by decide) (by decide),
      if_pos rfl, ih (Nat.lt_of_succ_lt_succ hcount)]
    rfl

/-- Every text has a character of its own. -/
theorem length_le (h : Listed items spelling) : items.length ≤ spelling.length := by
  induction h with
  | nil => exact Nat.zero_le _
  | last => simp only [List.length_append, List.length_cons]; omega
  | cons _ _ _ _ ih => simp only [List.length_append, List.length_cons]; omega

end Listed

/-- Texts on lines of their own are such a list. -/
theorem listed_itemLines (items : List String) :
    Listed items (items.flatMap itemLine ++ "\n]".toList) := by
  have hindent : Layout "\n    ".toList := layout_iff.mpr (by decide)
  have hend : Layout "\n".toList := layout_iff.mpr (by decide)
  induction items with
  | nil => exact .nil hend
  | cons item items ih =>
    have hline : (item :: items).flatMap itemLine ++ "\n]".toList = "\n    ".toList ++
        (Quoted.encode item.toList ++ ([] ++ ',' :: (items.flatMap itemLine ++ "\n]".toList))) := by
      simp [itemLine]
    rw [hline]
    exact .cons hindent (Quoted.quotes_encode _) layout_nil ih

theorem value?_list {levels : Nat} {body rest : List Char} {items : List Value}
    (h : items? (value? levels) (body.length + 1) body = some (items, rest)) :
    value? (levels + 1) ('[' :: body) = some (.list items, rest) := by
  rw [value?, h]
  rfl

/-! ### Words in front of a line end -/

/-- A word is read at every level of brackets. -/
theorem value?_word (levels : Nat) {word : List Char} {value : Value}
    (hall : ∀ c ∈ word, isWordChar c = true) (hvalue : Value.ofWord? word = some value)
    (rest : List Char) : value? levels (word ++ '\n' :: rest) = some (value, '\n' :: rest) := by
  have hfirst {c : Char} {more : List Char} (hc : isWordChar c = false) (hline : c ≠ '\n') :
      word ++ '\n' :: rest ≠ c :: more := by
    cases word with
    | nil => exact fun h => hline (List.cons.inj h).1.symm
    | cons d word =>
      intro h
      have hd := hall d List.mem_cons_self
      rw [(List.cons.inj h).1, hc] at hd
      cases hd
  have hspan : (word ++ '\n' :: rest).span isWordChar = (word, '\n' :: rest) :=
    Peels.span_eq ⟨hall, by simp; decide⟩
  have hplain : plain? (word ++ '\n' :: rest) = some (value, '\n' :: rest) := by
    unfold plain?
    split
    · rename_i h
      exact absurd h (hfirst (by decide) (by decide))
    · rename_i h
      exact absurd h (hfirst (by decide) (by decide))
    · -- A line end is no blank, so no time is looked for behind a date.
      rw [hspan]
      simp [hvalue]
  cases levels with
  | zero => exact hplain
  | succ levels =>
    unfold value?
    split
    · rename_i h
      exact absurd h (hfirst (by decide) (by decide))
    · rename_i h
      exact absurd h (hfirst (by decide) (by decide))
    · exact hplain

/-! ### Settings -/

/-- The values that the reader knows: its integers have 63 bits and a sign. -/
def Setting.Fits : Setting → Prop
  | .natural n => n < Nat.pow 2 63
  | .text _ | .flag _ | .texts _ => True

/-- **The spellings of a value.** -/
inductive Setting.Spelled : Setting → List Char → Prop where
  | text {s : String} {quoted : List Char} (h : Quoted.Quotes s.toList quoted) :
    Spelled (.text s) quoted
  | natural (n : Nat) : Spelled (.natural n) (Nat.toDigits 10 n)
  | no : Spelled (.flag false) "false".toList
  | yes : Spelled (.flag true) "true".toList
  | texts {items : List String} {spelling : List Char} (h : Listed items spelling) :
    Spelled (.texts items) ('[' :: spelling)

/-- What is written for a value spells it. -/
theorem Setting.spelled_render (setting : Setting) : setting.Spelled setting.render := by
  cases setting with
  | text s => exact .text (Quoted.quotes_encode _)
  | natural n => exact .natural n
  | flag b =>
    cases b with
    | false => exact .no
    | true => exact .yes
  | texts items =>
    match items with
    | [] => exact .texts (.nil layout_nil)
    | [item] => exact .texts (.last layout_nil (Quoted.quotes_encode _) layout_nil)
    | first :: second :: more => exact .texts (listed_itemLines _)

/-- **A spelling of a value is read as that value** up to the line end behind it. -/
theorem value?_spelled {setting : Setting} {spelling : List Char} (h : setting.Spelled spelling)
    (hfits : setting.Fits) (rest : List Char) :
    value? limit (spelling ++ '\n' :: rest) = some (setting.value, '\n' :: rest) := by
  cases h with
  | text hquotes =>
    exact value?_quoted hquotes limit (Quoted.open_cons.mpr (by decide))
      (Quoted.open_cons.mpr (by decide))
  | natural n =>
    have hall : ∀ c ∈ Nat.toDigits 10 n, isWordChar c = true :=
      fun c hc => isWordChar_of_isDigit (Text.isDigit_of_mem_toDigits hc)
    exact value?_word limit hall (ofWord?_toDigits hfits) rest
  | no =>
    have hall : "false".toList.all isWordChar = true := by decide
    exact value?_word limit (List.all_eq_true.mp hall) rfl rest
  | yes =>
    have hall : "true".toList.all isWordChar = true := by decide
    exact value?_word limit (List.all_eq_true.mp hall) rfl rest
  | @texts items spelling hlisted =>
    have hcount : items.length < (spelling ++ '\n' :: rest).length + 1 := by
      have hlength := hlisted.length_le
      rw [List.length_append]
      omega
    exact value?_list (hlisted.items?_append 78 hcount _)

end HeatPlacement.Toml
