import Mathlib.Tactic
import LcxlNetLoader.Lib.Xml

/-!
# Documents as texts

The text of a document with a byte order mark, a declaration and a root: each element on a line of
its own, four blanks deeper than the one it is in. An element that can be written is read of its
text as it was (`read_text`); what follows an element's children is what ends them, which the
induction over the text carries along.
-/

namespace Xml

/-! ## Writing -/

def escape : Char → List Char
  | '"' => "&quot;".toList
  | '&' => "&amp;".toList
  | '\'' => "&apos;".toList
  | '<' => "&lt;".toList
  | '>' => "&gt;".toList
  | c => [c]

def attributeText (a : String × String) : List Char :=
  ' ' :: (a.1.toList ++ '=' :: '"' :: (a.2.toList.flatMap escape ++ ['"']))

def indent (depth : ℕ) : List Char := '\n' :: List.replicate (4 * depth) ' '

/-- Each element on a line of its own, which begins before it. -/
def elementsText (depth : ℕ) : List Element → List Char
  | [] => []
  | ⟨name, attributes, children⟩ :: es =>
    indent depth ++ '<' :: (name.toList ++ (attributes.flatMap attributeText ++
      ((match children with
        | [] => ['/', '>']
        | c :: cs => '>' :: (elementsText (depth + 1) (c :: cs) ++
          (indent depth ++ '<' :: '/' :: (name.toList ++ ['>'])))) ++ elementsText depth es)))

def prologue : List Char := '\uFEFF' :: "<?xml version=\"1.0\" encoding=\"UTF-8\"?>".toList

/-- The text of a document with that root. -/
def text (e : Element) : String := String.ofList (prologue ++ (elementsText 0 [e] ++ ['\n']))

/-! ## Reading -/

def skipSpace (cs : List Char) : List Char := cs.dropWhile Char.isWhitespace

def readName (cs : List Char) : Option (String × List Char) :=
  let name := String.ofList (cs.takeWhile isNameChar)
  if isName name then some (name, cs.dropWhile isNameChar) else none

/-- What follows an ampersand. -/
def readEntity : List Char → Option (Char × List Char)
  | 'q' :: 'u' :: 'o' :: 't' :: ';' :: cs => some ('"', cs)
  | 'a' :: 'm' :: 'p' :: ';' :: cs => some ('&', cs)
  | 'a' :: 'p' :: 'o' :: 's' :: ';' :: cs => some ('\'', cs)
  | 'l' :: 't' :: ';' :: cs => some ('<', cs)
  | 'g' :: 't' :: ';' :: cs => some ('>', cs)
  | _ => none

/-- A text up to its quote. An ampersand that begins no entity stays. -/
def readText : ℕ → List Char → Option (List Char × List Char)
  | 0, _ => none
  | _ + 1, [] => none
  | n + 1, c :: cs =>
    if c = '"' then some ([], cs)
    else
      let (c, cs) := if c = '&' then (readEntity cs).getD ('&', cs) else (c, cs)
      (readText n cs).map fun r => (c :: r.1, r.2)

def readAttribute (n : ℕ) (cs : List Char) : Option ((String × String) × List Char) := do
  let (key, cs) ← readName cs
  match cs with
  | '=' :: '"' :: cs =>
    let (text, cs) ← readText n cs
    pure ((key, String.ofList text), cs)
  | _ => none

/-- The attributes up to the end of the tag. -/
def readAttributes : ℕ → List Char → Option (List (String × String) × List Char)
  | 0, _ => none
  | n + 1, cs =>
    match skipSpace cs with
    | '/' :: cs => some ([], '/' :: cs)
    | '>' :: cs => some ([], '>' :: cs)
    | cs => do
      let (a, cs) ← readAttribute n cs
      let (attributes, cs) ← readAttributes n cs
      pure (a :: attributes, cs)

/-- A tag's name and attributes. -/
def readTag (n : ℕ) (cs : List Char) :
    Option ((String × List (String × String)) × List Char) := do
  let (name, cs) ← readName cs
  let (attributes, cs) ← readAttributes n cs
  pure ((name, attributes), cs)

def readEndTag (name : String) (cs : List Char) : Option (List Char) := do
  let (name', cs) ← readName (cs.drop 2)
  match skipSpace cs with
  | '>' :: cs => if name' = name then some cs else none
  | _ => none

/-- Elements up to an end tag or the end. -/
def readElements : ℕ → List Char → Option (List Element × List Char)
  | 0, _ => none
  | n + 1, cs =>
    match skipSpace cs with
    | [] => some ([], [])
    | '<' :: cs =>
      if cs.head? = some '/' then some ([], '<' :: cs)
      else do
        let ((name, attributes), cs) ← readTag n cs
        match cs with
        | '/' :: '>' :: cs =>
          let (es, cs) ← readElements n cs
          pure (⟨name, attributes, []⟩ :: es, cs)
        | '>' :: cs =>
          let (children, cs) ← readElements n cs
          let cs ← readEndTag name cs
          let (es, cs) ← readElements n cs
          pure (⟨name, attributes, children⟩ :: es, cs)
        | _ => none
    | _ => none

/-- What a text is read as, with or without the prologue. -/
def read (text : String) : Document :=
  let cs := (text.toList.dropPrefix? prologue).getD text.toList
  match readElements (cs.length + 1) cs with
  | some ([], []) => .rootless
  | some ([e], []) => .root e
  | _ => .error

/-! ## What was written is read -/

variable {c : Char} {name : String} {e : Element} {rest : List Char} {n : ℕ}

theorem exists_of_isName (h : isName name) :
    ∃ c cs, name.toList = c :: cs ∧ isNameStart c ∧ ∀ d ∈ c :: cs, isNameChar d := by
  unfold isName at h
  rcases hname : name.toList with _ | ⟨c, cs⟩ <;> rw [hname] at h
  · cases h
  · simp only [Bool.and_eq_true, List.all_eq_true] at h
    refine ⟨c, cs, rfl, h.1, fun d hd => ?_⟩
    rcases List.mem_cons.1 hd with rfl | hd
    · simp [isNameChar, h.1]
    · exact h.2 d hd

theorem not_isWhitespace_of_isNameStart (h : isNameStart c) : c.isWhitespace = false := by
  by_contra hw
  simp only [Bool.not_eq_false, Char.isWhitespace, Bool.or_eq_true, decide_eq_true_eq] at hw
  rcases hw with ((rfl | rfl) | rfl) | rfl <;> exact absurd h (by decide)

/-- A name ends where a character comes that cannot be in one. -/
theorem readName_append (h : isName name) (hrest : ∀ c ∈ rest.head?, isNameChar c = false) :
    readName (name.toList ++ rest) = some (name, rest) := by
  obtain ⟨c, cs, hname, -, hall⟩ := exists_of_isName h
  rw [← hname] at hall
  have htake : rest.takeWhile isNameChar = [] ∧ rest.dropWhile isNameChar = rest := by
    rcases rest with _ | ⟨d, ds⟩
    · exact ⟨rfl, rfl⟩
    · have hd : isNameChar d = false := hrest d rfl
      simp [hd]
  simp only [readName, List.takeWhile_append_of_pos hall, List.dropWhile_append_of_pos hall, htake,
    List.append_nil, String.ofList_toList, h, if_true]

theorem skipSpace_indent (depth : ℕ) (cs : List Char) :
    skipSpace (indent depth ++ '<' :: cs) = '<' :: cs := by
  have hall : ∀ c ∈ indent depth, c.isWhitespace = true := by
    intro c hc
    rcases List.mem_cons.1 hc with rfl | hc
    · decide
    · rw [(List.mem_replicate.1 hc).2]
      decide
  rw [skipSpace, List.dropWhile_append_of_pos hall, List.dropWhile_cons_of_neg (by decide)]

theorem readText_escape (c : Char) (cs : List Char) :
    readText (n + 1) (escape c ++ cs) = (readText n cs).map fun r => (c :: r.1, r.2) := by
  unfold escape
  split
  case h_6 h1 h2 _ _ _ =>
    simp only [List.singleton_append, readText, if_neg h1, if_neg h2]
  all_goals rfl

theorem readText_text : ∀ (t : List Char) {n : ℕ}, t.length < n →
    readText n (t.flatMap escape ++ '"' :: rest) = some (t, rest)
  | [], n + 1, _ => by simp [readText]
  | c :: t, n + 1, h => by
    have ht : t.length < n := by simpa using h
    rw [List.flatMap_cons, List.append_assoc, readText_escape, readText_text t ht, Option.map_some]

theorem length_escape_pos (c : Char) : 1 ≤ (escape c).length := by
  unfold escape
  split <;> simp

theorem length_le_flatMap_escape : ∀ t : List Char, t.length ≤ (t.flatMap escape).length
  | [] => le_rfl
  | c :: t => by
    have := length_escape_pos c
    have := length_le_flatMap_escape t
    rw [List.flatMap_cons, List.length_append, List.length_cons]
    omega

theorem readAttribute_text {a : String × String} (ha : isName a.1) {n : ℕ}
    (hn : (a.2.toList.flatMap escape).length < n) :
    readAttribute n (a.1.toList ++ '=' :: '"' :: (a.2.toList.flatMap escape ++ '"' :: rest))
      = some (a, rest) := by
  have hname : readName (a.1.toList ++ '=' :: '"' :: (a.2.toList.flatMap escape ++ '"' :: rest))
      = some (a.1, '=' :: '"' :: (a.2.toList.flatMap escape ++ '"' :: rest)) :=
    readName_append ha (by
      rintro c ⟨⟩
      decide)
  have htext : readText n (a.2.toList.flatMap escape ++ '"' :: rest) = some (a.2.toList, rest) :=
    readText_text _ ((length_le_flatMap_escape a.2.toList).trans_lt hn)
  simp only [readAttribute, hname, htext, Option.bind_eq_bind, Option.bind_some, Option.pure_def,
    String.ofList_toList]

/-- Attributes, up to a character that ends the tag. -/
theorem readAttributes_text (hc : c = '/' ∨ c = '>') : ∀ (attributes : List (String × String))
    {n : ℕ}, (∀ a ∈ attributes, isName a.1) → (attributes.flatMap attributeText).length < n →
    readAttributes n (attributes.flatMap attributeText ++ c :: rest) = some (attributes, c :: rest)
  | [], n + 1, _, _ => by
    rcases hc with rfl | rfl <;> rfl
  | a :: attributes, n + 1, ha, hn => by
    obtain ⟨hname, hnames⟩ := List.forall_mem_cons.1 ha
    obtain ⟨d, ds, hd, hstart, -⟩ := exists_of_isName hname
    have hlen : (a.2.toList.flatMap escape).length < n
        ∧ (attributes.flatMap attributeText).length < n := by
      simp only [List.flatMap_cons, attributeText, List.length_append, List.length_cons,
        List.length_nil] at hn
      omega
    have hattribute : readAttribute n (a.1.toList ++ '=' :: '"' :: (a.2.toList.flatMap escape ++
        '"' :: (attributes.flatMap attributeText ++ c :: rest)))
        = some (a, attributes.flatMap attributeText ++ c :: rest) :=
      readAttribute_text hname hlen.1
    have hrest := readAttributes_text hc attributes hnames hlen.2
    have hskip : skipSpace ((a :: attributes).flatMap attributeText ++ c :: rest) =
        a.1.toList ++ '=' :: '"' :: (a.2.toList.flatMap escape ++
          '"' :: (attributes.flatMap attributeText ++ c :: rest)) := by
      simp only [List.flatMap_cons, attributeText, skipSpace, List.cons_append, List.append_assoc,
        List.nil_append, hd]
      rw [List.dropWhile_cons_of_pos (by decide), List.dropWhile_cons_of_neg]
      simp [not_isWhitespace_of_isNameStart hstart]
    rw [readAttributes, hskip]
    split
    case h_1 heq =>
      rw [hd, List.cons_append] at heq
      exact absurd ((List.cons.inj heq).1 ▸ hstart) (by decide)
    case h_2 heq =>
      rw [hd, List.cons_append] at heq
      exact absurd ((List.cons.inj heq).1 ▸ hstart) (by decide)
    case h_3 =>
      simp only [hattribute, hrest, Option.bind_eq_bind, Option.bind_some, Option.pure_def]

theorem readTag_text {attributes : List (String × String)} (hc : c = '/' ∨ c = '>')
    (hname : isName name) (ha : ∀ a ∈ attributes, isName a.1)
    (hn : (attributes.flatMap attributeText).length < n) :
    readTag n (name.toList ++ (attributes.flatMap attributeText ++ c :: rest))
      = some ((name, attributes), c :: rest) := by
  have hread : readName (name.toList ++ (attributes.flatMap attributeText ++ c :: rest))
      = some (name, attributes.flatMap attributeText ++ c :: rest) := by
    refine readName_append hname ?_
    rcases attributes with _ | ⟨a, attributes⟩
    · rintro d ⟨⟩
      rcases hc with rfl | rfl <;> decide
    · rintro d ⟨⟩
      decide
  simp only [readTag, hread, readAttributes_text hc attributes ha hn, Option.bind_eq_bind,
    Option.bind_some, Option.pure_def]

theorem readEndTag_text (hname : isName name) :
    readEndTag name ('<' :: '/' :: (name.toList ++ '>' :: rest)) = some rest := by
  have hread : readName (name.toList ++ '>' :: rest) = some (name, '>' :: rest) := by
    refine readName_append hname ?_
    rintro d ⟨⟩
    decide
  have hskip : skipSpace ('>' :: rest) = '>' :: rest := by
    rw [skipSpace, List.dropWhile_cons_of_neg (by decide)]
  simp only [readEndTag, List.drop_succ_cons, List.drop_zero, hread, hskip, Option.bind_eq_bind,
    Option.bind_some, if_true]

/-- What may come after elements: the end, or an end tag. -/
def Ends (cs : List Char) : Prop := skipSpace cs = [] ∨ ∃ ds, skipSpace cs = '<' :: '/' :: ds

theorem head?_append_of_isName (hname : isName name) (cs : List Char) :
    (name.toList ++ cs).head? ≠ some '/' := by
  obtain ⟨c, ds, hc, hstart, -⟩ := exists_of_isName hname
  rw [hc, List.cons_append, List.head?_cons]
  intro h
  exact absurd (Option.some.inj h ▸ hstart) (by decide)

/-- The elements of a text, and what comes after them. Each is as deep as it may be. -/
theorem readElements_text : ∀ {m n depth : ℕ} {es : List Element} {rest : List Char},
    (∀ e ∈ es, e.Writable m) → (elementsText depth es).length < n → Ends rest →
    readElements n (elementsText depth es ++ rest) = some (es, skipSpace rest)
  | _, n + 1, depth, [], rest, _, _, hrest => by
    rw [elementsText, List.nil_append, readElements]
    rcases hrest with hskip | ⟨ds, hskip⟩ <;> simp [hskip]
  | _, n + 1, depth, ⟨name, attributes, children⟩ :: es, rest, hw, hn, hrest => by
    obtain ⟨⟨hname, hattributes, -, hchildren⟩, hes⟩ := List.forall_mem_cons.1 hw
    have ha : ∀ a ∈ attributes, isName a.1 := fun a ha => (hattributes a ha).1
    rcases children with _ | ⟨d, ds⟩
    · have hlen : (attributes.flatMap attributeText).length < n
          ∧ (elementsText depth es).length < n := by
        simp only [elementsText, List.length_append, List.length_cons] at hn
        omega
      have htag : readTag n (name.toList ++ (attributes.flatMap attributeText ++
          '/' :: '>' :: (elementsText depth es ++ rest)))
          = some ((name, attributes), '/' :: '>' :: (elementsText depth es ++ rest)) :=
        readTag_text (.inl rfl) hname ha hlen.1
      simp only [elementsText, readElements, List.append_assoc, List.cons_append,
        List.nil_append, skipSpace_indent, head?_append_of_isName hname, if_false, htag,
        Option.bind_eq_bind, Option.bind_some, readElements_text hes hlen.2 hrest, Option.pure_def]
    · have hlen : (attributes.flatMap attributeText).length < n
          ∧ (elementsText (depth + 1) (d :: ds)).length < n
          ∧ (elementsText depth es).length < n := by
        simp only [elementsText, List.length_append, List.length_cons] at hn ⊢
        omega
      have hends : Ends (indent depth ++
          '<' :: '/' :: (name.toList ++ '>' :: (elementsText depth es ++ rest))) :=
        .inr ⟨_, skipSpace_indent depth _⟩
      have htag : ∀ cs, readTag n (name.toList ++ (attributes.flatMap attributeText ++ '>' :: cs))
          = some ((name, attributes), '>' :: cs) := fun cs =>
        readTag_text (.inr rfl) hname ha hlen.1
      have hinner := readElements_text hchildren hlen.2.1 hends
      rw [skipSpace_indent] at hinner
      rw [elementsText]
      simp only [readElements, List.append_assoc, List.cons_append, List.nil_append,
        skipSpace_indent, head?_append_of_isName hname, if_false, htag, Option.bind_eq_bind,
        Option.bind_some, hinner, readEndTag_text hname, readElements_text hes hlen.2.2 hrest,
        Option.pure_def]

/-- An element that can be written is read of its text. -/
theorem read_text {m : ℕ} (h : e.Writable m) : read (text e) = .root e := by
  have hdrop : (prologue ++ (elementsText 0 [e] ++ ['\n'])).dropPrefix? prologue
      = some (elementsText 0 [e] ++ ['\n']) :=
    List.dropPrefix?_append_of_beq _ (BEq.refl prologue)
  have helements : readElements ((elementsText 0 [e] ++ ['\n']).length + 1)
      (elementsText 0 [e] ++ ['\n']) = some ([e], skipSpace ['\n']) :=
    readElements_text (by simpa using h) (by simp) (.inl rfl)
  simp only [read, text, String.toList_ofList, hdrop, Option.getD_some, helements]
  rfl

end Xml
