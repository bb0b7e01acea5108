import HeatPlacement.Proofs.Parameters.GroupNames
import HeatPlacement.Proofs.Text.Trimming

/-!
# Clean group names

A name is cut out of its piece by three trims, of blanks, of quotes and brackets, and of blanks
again. Layers that lie further inside stay with the name.

* `GroupNames.Clean`: a name that neither begins nor ends with a blank, a quote or a bracket
* `GroupNames.Margin`, `GroupNames.unwrap_eq_iff`: **what is cut off** around a name
* `GroupNames.groups_tidy`: the names in a tidied text
* `GroupNames.tidied_clean_iff`: **when the names come out clean**, and when tidying again changes
  nothing
* `GroupNames.spaced_list_stays_quoted`: a list with blanks inside its brackets
-/

namespace HeatPlacement

namespace Heat.GroupNames

open Text (Peels)

/-! ### What is cut off around a name -/

/-- **A clean name** is not empty and has no blank, quote or bracket at its ends. -/
def Clean (name : List Char) : Prop :=
  name ≠ [] ∧ ∀ c, c ∈ name.head? ∨ c ∈ name.getLast? →
    Text.isBlank c = false ∧ isWrapping c = false

/-- **What is cut off in front of a name**, from the outside: blanks, then quotes and brackets, then
blanks. The name does not begin with a blank, and it begins with a quote or a bracket only if blanks
part it from others. -/
def Margin (outside name : List Char) : Prop :=
  ∃ blanks wrapping gap : List Char, outside = blanks ++ wrapping ++ gap ∧
    (∀ c ∈ blanks, Text.isBlank c = true) ∧ (∀ c ∈ wrapping, isWrapping c = true) ∧
    (∀ c ∈ gap, Text.isBlank c = true) ∧
    ∀ c ∈ name.head?, Text.isBlank c = false ∧
      (isWrapping c = true → wrapping ≠ [] ∧ gap ≠ [])

theorem not_isBlank_of_isWrapping {c : Char} (h : isWrapping c = true) :
    Text.isBlank c = false := by
  simp only [isWrapping, Bool.or_eq_true, beq_iff_eq] at h
  rcases h with (rfl | rfl) | rfl <;> decide

/-- A margin is peeled off in three steps. -/
theorem margin_iff {outside name : List Char} (hname : name ≠ []) :
    Margin outside name ↔ ∃ blanks wrapping gap, outside = blanks ++ wrapping ++ gap ∧
      Peels Text.isBlank blanks (wrapping ++ gap ++ name) ∧
      Peels isWrapping wrapping (gap ++ name) ∧ Peels Text.isBlank gap name := by
  obtain ⟨c, rest, rfl⟩ := List.exists_cons_of_ne_nil hname
  constructor
  · rintro ⟨blanks, wrapping, gap, rfl, hblanks, hwrapping, hgap, hhead⟩
    obtain ⟨hblank, hapart⟩ := hhead c rfl
    cases wrapping with
    | nil =>
      -- Without quotes and brackets the two layers of blanks are one.
      have hc : isWrapping c = false := by
        rw [← Bool.not_eq_true]
        exact fun h => (hapart h).1 rfl
      refine ⟨blanks ++ gap, [], [], by simp, ⟨?_, by simpa using hblank⟩,
        ⟨nofun, by simpa using hc⟩, nofun, by simpa using hblank⟩
      exact fun d hd => (List.mem_append.mp hd).elim (hblanks d) (hgap d)
    | cons w more =>
      refine ⟨blanks, w :: more, gap, rfl, ⟨hblanks, ?_⟩, ⟨hwrapping, ?_⟩, hgap,
        by simpa using hblank⟩
      · rintro d ⟨⟩
        exact not_isBlank_of_isWrapping (hwrapping w List.mem_cons_self)
      · cases gap with
        | nil =>
          rintro d ⟨⟩
          rw [← Bool.not_eq_true]
          exact fun h => (hapart h).2 rfl
        | cons g more =>
          rintro d ⟨⟩
          rw [← Bool.not_eq_true]
          intro h
          have hblank := hgap g List.mem_cons_self
          rw [not_isBlank_of_isWrapping h] at hblank
          cases hblank
  · rintro ⟨blanks, wrapping, gap, rfl, ⟨hblanks, hfirst⟩, ⟨hwrapping, hsecond⟩, hgap, hthird⟩
    refine ⟨blanks, wrapping, gap, rfl, hblanks, hwrapping, hgap, fun d hd => ⟨hthird d hd, ?_⟩⟩
    intro hd'
    cases hd
    have hgapped : gap ≠ [] := by
      rintro rfl
      rw [hsecond c rfl] at hd'
      cases hd'
    refine ⟨?_, hgapped⟩
    rintro rfl
    obtain ⟨g, more, rfl⟩ := List.exists_cons_of_ne_nil hgapped
    have hblank := hgap g List.mem_cons_self
    rw [hfirst g rfl] at hblank
    cases hblank

/-- The margin behind a name, seen from the other end. -/
theorem margin_reverse_iff {outside name : List Char} (hname : name ≠ []) :
    Margin outside.reverse name.reverse ↔ ∃ gap wrapping blanks,
      outside = gap ++ wrapping ++ blanks ∧
      Peels Text.isBlank blanks.reverse (name ++ (gap ++ wrapping)).reverse ∧
      Peels isWrapping wrapping.reverse (name ++ gap).reverse ∧
      Peels Text.isBlank gap.reverse name.reverse := by
  have hreverse : name.reverse ≠ [] := by simpa using hname
  rw [margin_iff hreverse]
  constructor
  · rintro ⟨blanks, wrapping, gap, houtside, hblanks, hwrapping, hgap⟩
    refine ⟨gap.reverse, wrapping.reverse, blanks.reverse, ?_, ?_, ?_, ?_⟩
    · rw [List.reverse_eq_iff] at houtside
      simp [houtside]
    · simpa using hblanks
    · simpa using hwrapping
    · simpa using hgap
  · rintro ⟨gap, wrapping, blanks, rfl, hblanks, hwrapping, hgap⟩
    refine ⟨blanks.reverse, wrapping.reverse, gap.reverse, by simp, ?_, ?_, hgap⟩
    · simpa using hblanks
    · simpa using hwrapping

/-- **What is cut off around a name**: a margin at each end. -/
theorem unwrap_eq_iff {piece name : List Char} (hname : name ≠ []) :
    unwrap piece = name ↔ ∃ front back, piece = front ++ name ++ back ∧ Margin front name ∧
      Margin back.reverse name.reverse := by
  -- What is inside a layer begins like the layers up to the name, seen from either end.
  have hfront : ∀ (drop : Char → Bool) (layer inner back : List Char),
      Peels drop layer (inner ++ name ++ back) ↔ Peels drop layer (inner ++ name) :=
    fun _ _ _ _ => Text.peels_append_iff (by simp [hname])
  have hback : ∀ (drop : Char → Bool) (layer inner front : List Char),
      Peels drop layer (front ++ name ++ inner).reverse ↔
        Peels drop layer (name ++ inner).reverse := by
    intro drop layer inner front
    rw [List.append_assoc, List.reverse_append, Text.peels_append_iff (by simp [hname])]
  have hmiddle : ∀ gap gap' : List Char, gap ++ name ++ gap' ≠ [] := by simp [hname]
  have hassoc : ∀ wrapping gap gap' wrapping' : List Char,
      wrapping ++ (gap ++ name ++ gap') ++ wrapping' =
        (wrapping ++ gap) ++ name ++ (gap' ++ wrapping') := by simp
  rw [unwrap, Text.trim, Text.trim, Text.trimMatches_eq_iff hname]
  constructor
  · rintro ⟨gap, gap', hgapped, hgap, hgap'⟩
    obtain ⟨wrapping, wrapping', hwrapped, hwrapping, hwrapping'⟩ :=
      (Text.trimMatches_eq_iff (hmiddle gap gap')).mp hgapped
    rw [hassoc] at hwrapped
    obtain ⟨blanks, blanks', rfl, hblanks, hblanks'⟩ :=
      (Text.trimMatches_eq_iff (hmiddle _ _)).mp hwrapped
    rw [hfront] at hblanks hwrapping
    rw [hback] at hblanks' hwrapping'
    exact ⟨blanks ++ wrapping ++ gap, gap' ++ wrapping' ++ blanks', by simp,
      (margin_iff hname).mpr ⟨blanks, wrapping, gap, rfl, hblanks, hwrapping, hgap⟩,
      (margin_reverse_iff hname).mpr ⟨gap', wrapping', blanks', rfl, hblanks', hwrapping', hgap'⟩⟩
  · rintro ⟨front, back, rfl, hmargin, hmargin'⟩
    obtain ⟨blanks, wrapping, gap, rfl, hblanks, hwrapping, hgap⟩ := (margin_iff hname).mp hmargin
    obtain ⟨gap', wrapping', blanks', rfl, hblanks', hwrapping', hgap'⟩ :=
      (margin_reverse_iff hname).mp hmargin'
    rw [← hfront] at hblanks hwrapping
    rw [← hback] at hblanks' hwrapping'
    refine ⟨gap, gap', (Text.trimMatches_eq_iff (hmiddle gap gap')).mpr
      ⟨wrapping, wrapping', ?_, hwrapping, hwrapping'⟩, hgap, hgap'⟩
    rw [hassoc]
    exact (Text.trimMatches_eq_iff (hmiddle _ _)).mpr ⟨blanks, blanks', by simp, hblanks, hblanks'⟩

/-! ### Names that come out clean -/

/-- A name neither begins nor ends with a blank. -/
theorem not_isBlank_of_mem_groups {text name : List Char} (h : name ∈ groups text) {c : Char}
    (hc : c ∈ name.head? ∨ c ∈ name.getLast?) : Text.isBlank c = false := by
  obtain ⟨hname, -⟩ := ne_nil_and_comma_not_mem_of_mem_groups h
  obtain ⟨piece, -, hpiece⟩ := List.mem_map.mp (List.mem_filter.mp h).1
  obtain ⟨front, back, -, ⟨_, _, _, -, -, -, -, hfront⟩, _, _, _, -, -, -, -, hback⟩ :=
    (unwrap_eq_iff hname).mp hpiece
  rcases hc with hc | hc
  · exact (hfront c hc).1
  · exact (hback c (by rwa [List.head?_reverse])).1

/-- **A piece with a buried layer**: behind its margins its name begins or ends with a quote or a
bracket. -/
def Buried (piece : List Char) : Prop :=
  ∃ front name back, name ≠ [] ∧ piece = front ++ name ++ back ∧ Margin front name ∧
    Margin back.reverse name.reverse ∧
    ∃ c, (c ∈ name.head? ∨ c ∈ name.getLast?) ∧ isWrapping c = true

theorem mem_groups_iff {text name : List Char} :
    name ∈ groups text ↔ name ≠ [] ∧ ∃ piece ∈ pieces text, unwrap piece = name := by
  simp only [groups, List.mem_filter, List.mem_map, Bool.not_eq_true', List.isEmpty_eq_false_iff]
  exact and_comm

/-- Names are clean unless a layer is buried in one of the pieces. -/
theorem clean_groups_iff {text : List Char} :
    (∀ name ∈ groups text, Clean name) ↔ ∀ piece ∈ pieces text, ¬ Buried piece := by
  constructor
  · rintro h piece hpiece ⟨front, name, back, hname, hlayers, hfront, hback, c, hc, hwrapping⟩
    have hunwrap := (unwrap_eq_iff hname).mpr ⟨front, back, hlayers, hfront, hback⟩
    have hclean := (h name (mem_groups_iff.mpr ⟨hname, piece, hpiece, hunwrap⟩)).2 c hc
    rw [hwrapping] at hclean
    cases hclean.2
  · intro h name hname
    obtain ⟨hne, piece, hpiece, hunwrap⟩ := mem_groups_iff.mp hname
    refine ⟨hne, fun c hc => ⟨not_isBlank_of_mem_groups hname hc, ?_⟩⟩
    rw [← Bool.not_eq_true]
    intro hwrapping
    obtain ⟨front, back, hlayers, hfront, hback⟩ := (unwrap_eq_iff hne).mp hunwrap
    exact h piece hpiece ⟨front, name, back, hne, hlayers, hfront, hback, c, hc, hwrapping⟩

/-! ### Tidied texts -/

/-- A blank in front of a piece changes nothing. -/
theorem unwrap_blank_cons (piece : List Char) : unwrap (' ' :: piece) = unwrap piece := by
  have htrim : Text.trim (' ' :: piece) = Text.trim piece := by
    rw [Text.trim, Text.trim, Text.trimMatches, Text.trimMatches,
      List.dropWhile_cons_of_pos (by decide)]
  rw [unwrap, unwrap, htrim]

/-- **The names in a tidied text** are the names, unwrapped once more. -/
theorem groups_tidy (text : List Char) :
    groups (tidy text) = ((groups text).map unwrap).filter fun name => !name.isEmpty := by
  rw [tidy]
  cases hnames : groups text with
  | nil => rfl
  | cons first rest =>
    have hcomma : ∀ name ∈ first :: rest, ',' ∉ name := fun name hname =>
      (ne_nil_and_comma_not_mem_of_mem_groups (hnames ▸ hname)).2
    rw [groups, pieces_intercalate hcomma, List.map_cons, List.map_cons, List.map_map]
    simp only [Function.comp_def, unwrap_blank_cons]

/-- A name is kept when it is unwrapped once more iff it is clean. -/
theorem unwrap_eq_self_iff {text name : List Char} (h : name ∈ groups text) :
    unwrap name = name ↔ Clean name := by
  obtain ⟨hne, -⟩ := ne_nil_and_comma_not_mem_of_mem_groups h
  rw [unwrap_eq_iff hne]
  constructor
  · rintro ⟨front, back, hname, hfront, hback⟩
    -- Nothing is cut off, so that no margin parts a quote or a bracket from others.
    have hlength := congrArg List.length hname
    simp only [List.length_append] at hlength
    obtain rfl : front = [] := List.eq_nil_of_length_eq_zero (by omega)
    obtain rfl : back = [] := List.eq_nil_of_length_eq_zero (by omega)
    have hbare : ∀ inside : List Char, Margin [] inside → ∀ c ∈ inside.head?,
        isWrapping c = false := by
      rintro inside ⟨blanks, wrapping, gap, hlayers, -, -, -, hhead⟩ c hc
      rw [← Bool.not_eq_true]
      intro hwrapping
      exact ((hhead c hc).2 hwrapping).2 (List.append_eq_nil_iff.mp hlayers.symm).2
    refine ⟨hne, fun c hc => ⟨not_isBlank_of_mem_groups h hc, ?_⟩⟩
    rcases hc with hc | hc
    · exact hbare name hfront c hc
    · exact hbare name.reverse hback c (by rwa [List.head?_reverse])
  · rintro ⟨-, hclean⟩
    have hbare : ∀ inside : List Char, (∀ c ∈ inside.head?, Text.isBlank c = false ∧
        isWrapping c = false) → Margin [] inside := by
      intro inside hhead
      refine ⟨[], [], [], rfl, nofun, nofun, nofun, fun c hc => ⟨(hhead c hc).1, fun h => ?_⟩⟩
      rw [(hhead c hc).2] at h
      cases h
    refine ⟨[], [], by simp, hbare name fun c hc => hclean c (.inl hc), hbare _ fun c hc => ?_⟩
    exact hclean c (.inr (by rwa [List.head?_reverse] at hc))

/-- To tidy a tidied text changes nothing iff its names are clean. -/
theorem tidy_tidy_eq_iff {text : List Char} :
    tidy (tidy text) = tidy text ↔ ∀ name ∈ groups text, Clean name := by
  rw [tidy_inj, groups_tidy]
  constructor
  · intro h name hname
    -- No name is lost, so each is unwrapped into itself.
    have hlength : (((groups text).map unwrap).filter fun name => !name.isEmpty).length =
        ((groups text).map unwrap).length := by
      rw [h, List.length_map]
    rw [List.filter_eq_self.mpr (List.length_filter_eq_length_iff.mp hlength)] at h
    have hself : (groups text).map unwrap = (groups text).map id := by rw [h, List.map_id]
    exact (unwrap_eq_self_iff hname).mp (List.map_inj_left.mp hself name hname)
  · intro h
    have hself : (groups text).map unwrap = groups text := by
      rw [List.map_congr_left fun name hname => (unwrap_eq_self_iff hname).mpr (h name hname),
        List.map_id']
    rw [hself, List.filter_eq_self]
    exact fun name hname => by simpa using (h name hname).1

/-- **When group names come out clean.** A tidied text joins names that are not empty, hold no comma
and neither begin nor end with a blank. All of them are clean iff no piece of the text has a buried
layer: a quote or a bracket which blanks part from those further outside. Exactly then it changes
nothing to tidy the tidied text again. -/
theorem tidied_clean_iff (text : List Char) :
    tidy text = [',', ' '].intercalate (groups text) ∧
      (∀ name ∈ groups text, name ≠ [] ∧ ',' ∉ name ∧
        ∀ c, c ∈ name.head? ∨ c ∈ name.getLast? → Text.isBlank c = false) ∧
      ((∀ name ∈ groups text, Clean name) ↔ ∀ piece ∈ pieces text, ¬ Buried piece) ∧
      (tidy (tidy text) = tidy text ↔ ∀ piece ∈ pieces text, ¬ Buried piece) := by
  refine ⟨rfl, fun name hname => ?_, clean_groups_iff, tidy_tidy_eq_iff.trans clean_groups_iff⟩
  obtain ⟨hne, hcomma⟩ := ne_nil_and_comma_not_mem_of_mem_groups hname
  exact ⟨hne, hcomma, fun c hc => not_isBlank_of_mem_groups hname hc⟩

/-- The parameter of a group list is the text of a list with blanks inside its brackets. The quotes
next to the brackets stay, whatever names the text is taken to join, and to tidy it again removes
them. -/
theorem spaced_list_stays_quoted :
    let text := "[ \"a\", \"b\" ]"
    resolve ⟨[], [("groups", .str text)]⟩ [] (.single "get_param" (.str "groups")) =
        "\"a, b\"".toList ∧
      tidy text.toList = "\"a, b\"".toList ∧ tidy (tidy text.toList) = "a, b".toList ∧
      ¬ ∃ names, tidy text.toList = [',', ' '].intercalate names ∧ ∀ name ∈ names, Clean name := by
  have htidy : tidy "[ \"a\", \"b\" ]".toList = "\"a, b\"".toList := by decide +kernel
  refine ⟨by decide +kernel, htidy, by decide +kernel, ?_⟩
  rintro ⟨names, hnames, hclean⟩
  rw [htidy] at hnames
  -- The first name begins with the quote, however many names there are.
  cases names with
  | nil => cases hnames
  | cons first rest =>
    obtain ⟨hne, hends⟩ := hclean first List.mem_cons_self
    obtain ⟨c, more, rfl⟩ := List.exists_cons_of_ne_nil hne
    have hhead : some '"' = some c := by
      have hfirst := congrArg List.head? hnames
      cases rest with
      | nil => simpa using hfirst
      | cons second others => simpa [List.intercalate_cons_cons] using hfirst
    cases hhead
    exact absurd (hends '"' (.inl rfl)).2 (by decide)

end Heat.GroupNames

end HeatPlacement
