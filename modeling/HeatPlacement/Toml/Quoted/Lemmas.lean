import HeatPlacement.Toml.Quoted

/-!
# Reading quoted texts back

* `Quotes`: the styles that can hold a text
* `Quotes.decode_append`: **a quoted text is read as that text**, and what follows is left
* `quotes_encode`: a text is written in a style that can hold it
-/

namespace HeatPlacement.Toml.Quoted

/-! ### What follows a quoted text -/

/-- An input that does not begin with a quote. -/
def Open (q : Char) (rest : List Char) : Prop := ∀ c ∈ rest.head?, c ≠ q

theorem open_cons {q c : Char} {rest : List Char} : Open q (c :: rest) ↔ c ≠ q := by
  simp [Open]

theorem doubled_of_open {q : Char} {rest : List Char} (h : Open q rest) :
    doubled q rest = false := by
  match rest with
  | [] | [_] => rfl
  | c :: d :: _ => simp [doubled, open_cons.1 h]

theorem doubled_cons_of_open {q : Char} {rest : List Char} (h : Open q rest) :
    doubled q (q :: rest) = false := by
  match rest with
  | [] => rfl
  | c :: _ => simp [doubled, open_cons.1 h]

theorem closing_open {q : Char} {rest : List Char} (h : Open q rest) :
    closing q rest = ([], rest) := by
  match rest with
  | [] => rfl
  | [c] => simp [closing, open_cons.1 h]
  | c :: d :: _ => simp [closing, open_cons.1 h]

theorem closing_cons {q : Char} {rest : List Char} (h : Open q rest) :
    closing q (q :: rest) = ([q], rest) := by
  match rest with
  | [] => simp [closing]
  | c :: _ => simp [closing, open_cons.1 h]

theorem closing_cons_cons {q : Char} {rest : List Char} :
    closing q (q :: q :: rest) = ([q, q], rest) := by
  simp [closing]

/-! ### Escapes -/

/-- What is written for a character is read as that character. -/
theorem body?_escapeChar (lines : Bool) {c : Char} (h : c ≠ '"') (tail : List Char) :
    body? lines (.plain false) (escapeChar lines c ++ tail) =
      push c (body? lines (.plain false) tail) := by
  unfold escapeChar
  split
  · subst_vars; simp [body?, escaped?]
  split
  · subst_vars; simp [body?, escaped?]
  split
  · subst_vars; cases lines <;> simp [body?, escaped?]
  split
  · subst_vars; simp [body?, escaped?]
  split
  · subst_vars; simp [body?, escaped?]
  split
  · subst_vars; simp [body?, escaped?]
  split
  · rename_i hc
    have small : c.toNat < 128 := by
      simp only [isControl, Bool.or_eq_true, Bool.and_eq_true, decide_eq_true_eq, beq_iff_eq] at hc
      rcases hc with hc | rfl
      · omega
      · decide
    have zero : Text.hexValue? '0' = some 0 := by decide
    have high := Text.hexValue?_upperHex (show c.toNat / 16 < 16 by omega)
    have low := Text.hexValue?_upperHex (show c.toNat % 16 < 16 by omega)
    have whole : 16 * (c.toNat / 16) + c.toNat % 16 = c.toNat := by omega
    simp [body?, escaped?, zero, high, low, whole, Text.character?_toNat]
  · simp_all [body?, isPlain]

/-- What is written for a character but a quote neither begins with a quote nor, unless the
character is one, with a line end. -/
theorem exists_escapeChar (lines : Bool) {c : Char} (h : c ≠ '"') :
    ∃ d tail, escapeChar lines c = d :: tail ∧ d ≠ '"' ∧ d ≠ '\r' ∧ (d = '\n' → c = '\n') := by
  unfold escapeChar
  split
  · exact ⟨_, _, rfl, by decide, by decide, fun h => absurd h (by decide)⟩
  split
  · exact ⟨_, _, rfl, by decide, by decide, fun h => absurd h (by decide)⟩
  split
  · rename_i hc
    cases lines
    · exact ⟨_, _, rfl, by decide, by decide, fun h => absurd h (by decide)⟩
    · exact ⟨_, _, rfl, by decide, by decide, fun _ => hc⟩
  split
  · exact ⟨_, _, rfl, by decide, by decide, fun h => absurd h (by decide)⟩
  split
  · exact ⟨_, _, rfl, by decide, by decide, fun h => absurd h (by decide)⟩
  split
  · exact ⟨_, _, rfl, by decide, by decide, fun h => absurd h (by decide)⟩
  split
  · exact ⟨_, _, rfl, by decide, by decide, fun h => absurd h (by decide)⟩
  · rename_i hr _
    exact ⟨_, _, rfl, h, hr, id⟩

/-- A text with escapes on one line is read up to its closing quote. -/
theorem body?_escape_line (run : Nat) (text rest : List Char) :
    body? false (.plain false) (escape false run text ++ '"' :: rest) = some (text, rest) := by
  induction text generalizing run with
  | nil => simp [escape, body?]
  | cons c text ih =>
    by_cases h : c = '"'
    · subst h
      simp [escape, body?, escaped?, ih, push]
    · simp [escape, h, List.append_assoc, body?_escapeChar _ h, ih, push]

/-- A text with escapes begins with no quote if two have just been written or it has none at its
start. -/
theorem open_escape {c : Char} {text : List Char} {run : Nat} (h : run = 2 ∨ c ≠ '"')
    (tail : List Char) : Open '"' (escape true run (c :: text) ++ tail) := by
  by_cases hc : c = '"'
  · obtain rfl : run = 2 := by simpa [hc] using h
    simp [escape, hc, open_cons]
  · obtain ⟨d, _, hd, hne, _⟩ := exists_escapeChar true hc
    simp [escape, hc, hd, open_cons, hne]

/-- A text with escapes on several lines is read up to its closing quotes. -/
theorem body?_escape_lines (run : Nat) (hrun : run ≤ 2) (text : List Char) {rest : List Char}
    (hrest : Open '"' rest) :
    body? true (.plain false) (escape true run text ++ '"' :: '"' :: '"' :: rest) =
      some (text, rest) := by
  induction text generalizing run with
  | nil => simp [escape, body?, doubled, closing_open hrest]
  | cons c text ih =>
    by_cases h : c = '"'
    · subst h
      by_cases hr : run < 2
      · match text, ih with
        | [], _ => simp [escape, hr, body?, doubled, closing_cons hrest]
        | d :: text, ih =>
          by_cases hd : d = '"' ∧ run = 0
          · obtain ⟨rfl, rfl⟩ := hd
            match text, ih with
            | [], _ => simp [escape, body?, doubled, closing_cons_cons]
            | e :: text, ih =>
              have ho : Open '"' (escape true 2 (e :: text) ++ '"' :: '"' :: '"' :: rest) :=
                open_escape (Or.inl rfl) _
              have tail := ih 1 (by omega)
              rw [escape] at tail ⊢
              rw [escape]
              simp only [if_true, Bool.true_and, Nat.zero_lt_two, Nat.one_lt_two, decide_true,
                Nat.zero_add, Nat.reduceAdd, List.cons_append] at tail ⊢
              rw [body?]
              simp [doubled_cons_of_open ho, tail, push]
          · have ho : Open '"'
                (escape true (run + 1) (d :: text) ++ '"' :: '"' :: '"' :: rest) := by
              refine open_escape ?_ _
              by_cases hd' : d = '"'
              · exact Or.inl (by have : run ≠ 0 := fun h0 => hd ⟨hd', h0⟩; omega)
              · exact Or.inr hd'
            have tail := ih (run + 1) (by omega)
            rw [escape]
            simp only [hr, decide_true, Bool.and_self, if_true, List.cons_append]
            rw [body?]
            simp [doubled_of_open ho, tail, push]
      · simp [escape, hr, body?, escaped?, ih 0 (by omega), push]
    · simp [escape, h, List.append_assoc, body?_escapeChar _ h, ih 0 (by omega), push]

/-! ### Texts without escapes -/

/-- A text without escapes on one line is read up to its closing quote. -/
theorem literal?_append {text : List Char} (h : ∀ c ∈ text, isPlain c = true ∧ c ≠ '\'')
    (rest : List Char) : literal? (text ++ '\'' :: rest) = some (text, rest) := by
  induction text with
  | nil => simp [literal?]
  | cons c text ih =>
    obtain ⟨hc, hq⟩ := h c (by simp)
    simp [literal?, hc, hq, ih fun d hd => h d (by simp [hd]), push]

/-- The longest run is no shorter than what has been seen of it. -/
theorem le_longestRun (q : Char) (run : Nat) (text : List Char) : run ≤ longestRun q run text := by
  induction text generalizing run with
  | nil => exact Nat.le_refl _
  | cons c text ih =>
    unfold longestRun
    split
    · exact Nat.le_trans (Nat.le_succ run) (ih _)
    · exact Nat.le_max_left _ _

/-- A text without escapes on several lines is read up to its closing quotes, if no three quotes
in a row are in it. -/
theorem literalLines?_append {run : Nat} {text : List Char}
    (h : ∀ c ∈ text, (c = '\n' ∨ isPlain c = true) ∧ c ≠ '\r')
    (hrun : longestRun '\'' run text ≤ 2) {rest : List Char} (hrest : Open '\'' rest) :
    literalLines? (text ++ '\'' :: '\'' :: '\'' :: rest) = some (text, rest) := by
  induction text generalizing run with
  | nil => simp [literalLines?, doubled, closing_open hrest]
  | cons c text ih =>
    have ih := fun run => @ih run fun d hd => h d (by simp [hd])
    obtain ⟨hc, hr⟩ := h c (by simp)
    by_cases hq : c = '\''
    · subst hq
      simp only [longestRun, if_true] at hrun
      match text, ih with
      | [], _ => simp [literalLines?, doubled, closing_cons hrest]
      | d :: text, ih =>
        by_cases hd : d = '\''
        · subst hd
          match text, ih with
          | [], _ => simp [literalLines?, doubled, closing_cons_cons]
          | e :: text, ih =>
            have he : e ≠ '\'' := by
              rintro rfl
              have := le_longestRun '\'' (run + 1 + 1 + 1) text
              simp only [longestRun, if_true] at hrun
              omega
            have tail := ih _ hrun
            rw [List.cons_append, literalLines?, if_pos rfl]
            have ho : Open '\'' (e :: (text ++ '\'' :: '\'' :: '\'' :: rest)) := open_cons.2 he
            simp only [List.cons_append] at tail ⊢
            rw [doubled_cons_of_open ho, if_neg (by decide), tail]
            rfl
        · have tail := ih _ hrun
          have ho : Open '\'' (d :: (text ++ '\'' :: '\'' :: '\'' :: rest)) := open_cons.2 hd
          rw [List.cons_append, literalLines?, if_pos rfl]
          simp only [List.cons_append] at tail ⊢
          rw [doubled_of_open ho, if_neg (by decide), tail]
          rfl
    · have tail := ih 0 (by
        simp only [longestRun, hq, if_false] at hrun
        omega)
      rw [List.cons_append, literalLines?, if_neg hq, if_neg hr, if_pos (by simpa using hc), tail]
      rfl

/-! ### All styles -/

/-- Nothing is skipped at the start of a text that begins with no line end. -/
theorem skipLineEnd_cons {c : Char} {rest : List Char} (h : c ≠ '\n') (h' : c ≠ '\r') :
    skipLineEnd (c :: rest) = c :: rest := by
  simp [skipLineEnd, h, h']

/-- A text without quotes in a row has no quote. -/
theorem not_mem_of_longestRun {q : Char} {text : List Char} (h : longestRun q 0 text = 0) :
    q ∉ text := by
  induction text with
  | nil => simp
  | cons c text ih =>
    by_cases hc : c = q
    · subst hc
      have := le_longestRun c (0 + 1) text
      simp only [longestRun, if_true] at h
      omega
    · simp only [longestRun, hc, if_false] at h
      simp [Ne.symm hc, ih (by omega)]

/-- A text in basic style is read back. -/
theorem decode_basic (text : List Char) {rest : List Char} (h : Open '"' rest) :
    decode (Style.basic.write text ++ rest) = some (text, rest) := by
  have hdoubled : doubled '"' (escape false 0 text ++ '"' :: rest) = false := by
    match text with
    | [] => exact doubled_cons_of_open h
    | c :: text =>
      by_cases hc : c = '"'
      · subst hc
        rfl
      · obtain ⟨d, _, he, hne, _⟩ := exists_escapeChar false hc
        refine doubled_of_open ?_
        simp [escape, hc, he, open_cons, hne]
  simp [Style.write, decode, hdoubled, body?_escape_line]

/-- A text in literal style is read back, if it has neither controls nor single quotes nor line
ends. -/
theorem decode_literal {text rest : List Char} (hp : ∀ c ∈ text, isPlain c = true)
    (hq : '\'' ∉ text) (h : Open '\'' rest) :
    decode (Style.literal.write text ++ rest) = some (text, rest) := by
  have hdoubled : doubled '\'' (text ++ '\'' :: rest) = false := by
    match text, hq with
    | [], _ => exact doubled_cons_of_open h
    | c :: text, hq =>
      have hc : c ≠ '\'' := fun hc => hq (by simp [hc])
      exact doubled_of_open (open_cons.2 hc)
  have hbody : literal? (text ++ '\'' :: rest) = some (text, rest) :=
    literal?_append (fun c hc => ⟨hp c hc, fun h => hq (h ▸ hc)⟩) rest
  simp [Style.write, decode, hdoubled, hbody]

/-- A text in the style of several lines with escapes is read back. -/
theorem decode_basicLines (text : List Char) {rest : List Char} (h : Open '"' rest) :
    decode (Style.basicLines.write text ++ rest) = some (text, rest) := by
  have hbody := body?_escape_lines 0 (by omega) text h
  by_cases hn : '\n' ∈ text
  · simp [Style.write, decode, hn, doubled, skipLineEnd, hbody]
  · have hskip : skipLineEnd (escape true 0 text ++ '"' :: '"' :: '"' :: rest) =
        escape true 0 text ++ '"' :: '"' :: '"' :: rest := by
      match text with
      | [] => rfl
      | c :: text =>
        by_cases hc : c = '"'
        · subst hc
          rfl
        · obtain ⟨d, tail, he, _, hr, hl⟩ := exists_escapeChar true hc
          simp only [escape, hc, if_false, he, List.cons_append]
          exact skipLineEnd_cons (fun hd => hn (by simp [hl hd])) hr
    simp [Style.write, decode, hn, doubled, hskip, hbody]

/-- A text in the style of several lines without escapes is read back, if it has neither controls
nor three single quotes in a row. -/
theorem decode_literalLines {text rest : List Char}
    (hp : ∀ c ∈ text, (c = '\n' ∨ isPlain c = true) ∧ c ≠ '\r')
    (hq : longestRun '\'' 0 text ≤ 2) (h : Open '\'' rest) :
    decode (Style.literalLines.write text ++ rest) = some (text, rest) := by
  have hbody := literalLines?_append hp hq h
  by_cases hn : '\n' ∈ text
  · simp [Style.write, decode, hn, doubled, skipLineEnd, hbody]
  · have hskip : skipLineEnd (text ++ '\'' :: '\'' :: '\'' :: rest) =
        text ++ '\'' :: '\'' :: '\'' :: rest := by
      match text, hn, hp with
      | [], _, _ => rfl
      | c :: text, hn, hp =>
        exact skipLineEnd_cons (fun hc => hn (by simp [hc])) (hp c (by simp)).2
    simp [Style.write, decode, hn, doubled, hskip, hbody]

/-! ### The styles of a text -/

/-- **The styles that can hold a text.** With escapes each of them can. Without escapes there are no
controls and not what closes the text, and on one line there is no line end. -/
inductive Quotes (text : List Char) : List Char → Prop where
  | basic : Quotes text (Style.basic.write text)
  | basicLines : Quotes text (Style.basicLines.write text)
  | literal (plain : ∀ c ∈ text, isPlain c = true) (unquoted : '\'' ∉ text) :
    Quotes text (Style.literal.write text)
  | literalLines (plain : ∀ c ∈ text, c = '\n' ∨ isPlain c = true)
    (runs : longestRun '\'' 0 text ≤ 2) : Quotes text (Style.literalLines.write text)

namespace Quotes

variable {text quoted : List Char}

/-- A quoted text begins with a quote. -/
theorem exists_eq_cons (h : Quotes text quoted) :
    ∃ q tail, quoted = q :: tail ∧ (q = '"' ∨ q = '\'') := by
  cases h with
  | basic | basicLines => exact ⟨_, _, rfl, .inl rfl⟩
  | literal | literalLines => exact ⟨_, _, rfl, .inr rfl⟩

/-- **A quoted text is read back**, if no quote follows. -/
theorem decode_append (h : Quotes text quoted) {rest : List Char} (hd : Open '"' rest)
    (hs : Open '\'' rest) : decode (quoted ++ rest) = some (text, rest) := by
  cases h with
  | basic => exact decode_basic text hd
  | basicLines => exact decode_basicLines text hd
  | literal plain unquoted => exact decode_literal plain unquoted hs
  | literalLines plain runs =>
    refine decode_literalLines (fun c hc => ⟨plain c hc, ?_⟩) runs hs
    rintro rfl
    exact absurd (plain _ hc) (by decide)

end Quotes

/-- A text without controls has only plain characters and line ends. -/
theorem isPlain_of_not_any {text : List Char} (h : text.any isControl = false) :
    ∀ c ∈ text, c = '\n' ∨ isPlain c = true := by
  intro c hc
  have hcontrol : isControl c = false := by simpa using List.any_eq_false.1 h c hc
  by_cases hn : c = '\n'
  · exact .inl hn
  · exact .inr (by simp [isPlain, hcontrol, hn])

/-- A text is written in a style that can hold it. -/
theorem quotes_encode (text : List Char) : Quotes text (encode text) := by
  unfold encode
  cases hstyle : Style.of text with
  | basic => exact .basic
  | basicLines => exact .basicLines
  | literal =>
    have hcases : text.any isControl = false ∧ longestRun '\'' 0 text = 0 ∧ '\n' ∉ text := by
      simp only [Style.of] at hstyle
      split at hstyle <;> simp_all
      split at hstyle <;> simp_all
      split at hstyle <;> simp_all
      split at hstyle <;> simp_all
    obtain ⟨hcontrols, hrun, hlines⟩ := hcases
    refine .literal (fun c hc => ?_) (not_mem_of_longestRun hrun)
    exact (isPlain_of_not_any hcontrols c hc).resolve_left fun h => hlines (h ▸ hc)
  | literalLines =>
    have hcases : text.any isControl = false ∧ longestRun '\'' 0 text ≤ 2 := by
      simp only [Style.of] at hstyle
      split at hstyle <;> simp_all
      split at hstyle <;> simp_all
      split at hstyle <;> simp_all
      split at hstyle <;> simp_all
    exact .literalLines (isPlain_of_not_any hcases.1) hcases.2

end HeatPlacement.Toml.Quoted
