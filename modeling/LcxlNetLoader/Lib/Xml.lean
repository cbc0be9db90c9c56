import Mathlib.Data.List.Nodup

/-!
# Elements of a document

An element has a name, attributes and child elements. The lemmas say what reading gives of an
element built step by step, so that a reader's lookups in a written element are rewritten away, and
that an element built of names and texts that can be written can be written itself.
-/

namespace Xml

structure Element where
  name : String
  attributes : List (String × String)
  children : List Element

/-- What a file is read as. -/
inductive Document
  /-- The file cannot be opened, or is no XML. -/
  | error
  /-- A document without an element. -/
  | rootless
  | root (e : Element)

def isNameStart (c : Char) : Bool := c.isAlpha || c == '_' || c == ':' || decide (128 ≤ c.toNat)

def isNameChar (c : Char) : Bool := isNameStart c || c.isDigit || c == '.' || c == '-'

def isName (s : String) : Bool :=
  match s.toList with
  | [] => false
  | c :: cs => isNameStart c && cs.all isNameChar

/-- A text that is not changed by the reading of ends of lines, and does not end before its end. -/
def IsText (s : String) : Prop := '\r' ∉ s.toList ∧ '\x00' ∉ s.toList

/-- An element that can be written: its names are names, no attribute is there twice, its texts are
read as they are, and it is at most so many elements deep. -/
inductive Element.Writable : ℕ → Element → Prop
  | mk {n : ℕ} {e : Element} (name : isName e.name)
      (attributes : ∀ a ∈ e.attributes, isName a.1 ∧ IsText a.2)
      (nodup : (e.attributes.map Prod.fst).Nodup)
      (children : ∀ c ∈ e.children, Writable n c) : Writable (n + 1) e

def newElement (name : String) : Element := ⟨name, [], []⟩

namespace Element

variable {e c : Element} {name name' key text : String} {g : Element → Element}

def getAttribute (e : Element) (key : String) : Option String := e.attributes.lookup key

def setAttribute (e : Element) (key text : String) : Element :=
  { e with attributes := (key, text) :: e.attributes.filter (·.1 ≠ key) }

def insertEndChild (e c : Element) : Element := { e with children := e.children ++ [c] }

def firstChildElement (e : Element) (name : String) : Option Element :=
  e.children.find? (·.name = name)

/-- The first child of the name, and those that its `NextSiblingElement`s of the name lead to. -/
def childElements (e : Element) (name : String) : List Element :=
  e.children.filter (·.name = name)

/-- The list with its first element of the name changed, which is put at the end if there is
none. -/
def updateFirst (name : String) (g : Element → Element) : List Element → List Element
  | [] => [g (newElement name)]
  | c :: cs => if c.name = name then g c :: cs else c :: updateFirst name g cs

/-- The element with its first child of the name changed, which is made if there is none. -/
def updateChild (e : Element) (name : String) (g : Element → Element) : Element :=
  { e with children := updateFirst name g e.children }

@[simp] theorem firstChildElement_newElement :
    (newElement name).firstChildElement name' = none := rfl

@[simp] theorem childElements_newElement : (newElement name).childElements name' = [] := rfl

@[simp] theorem name_newElement : (newElement name).name = name := by
  rw [newElement]

@[simp] theorem name_setAttribute : (e.setAttribute key text).name = e.name := rfl

@[simp] theorem name_insertEndChild : (e.insertEndChild c).name = e.name := rfl

@[simp] theorem name_updateChild : (e.updateChild name g).name = e.name := by
  rw [updateChild]

@[simp] theorem getAttribute_setAttribute :
    (e.setAttribute key text).getAttribute key = some text := by
  simp [getAttribute, setAttribute]

@[simp] theorem firstChildElement_setAttribute :
    (e.setAttribute key text).firstChildElement name = e.firstChildElement name := rfl

theorem firstChildElement_insertEndChild_of_ne (h : c.name ≠ name) :
    (e.insertEndChild c).firstChildElement name = e.firstChildElement name := by
  simp [firstChildElement, insertEndChild, List.find?_append, h]

theorem firstChildElement_insertEndChild (h : e.firstChildElement c.name = none) :
    (e.insertEndChild c).firstChildElement c.name = some c := by
  unfold firstChildElement at h
  simp [firstChildElement, insertEndChild, List.find?_append, h]

theorem childElements_insertEndChild (h : c.name = name) :
    (e.insertEndChild c).childElements name = e.childElements name ++ [c] := by
  simp [childElements, insertEndChild, List.filter_append, h]

theorem find_updateFirst_of_ne (hg : ∀ c, (g c).name = c.name) (h : name ≠ name') :
    ∀ cs : List Element, (updateFirst name g cs).find? (·.name = name')
      = cs.find? (·.name = name')
  | [] => by simp [updateFirst, hg, newElement, h]
  | c :: cs => by
    unfold updateFirst
    split_ifs with hc
    · have hne : c.name ≠ name' := fun h' => h (hc.symm.trans h')
      simp [hg, hne]
    · simp only [List.find?_cons, find_updateFirst_of_ne hg h cs]

theorem find_updateFirst (hg : ∀ c, (g c).name = c.name) :
    ∀ cs : List Element, (updateFirst name g cs).find? (·.name = name)
      = some (g ((cs.find? (·.name = name)).getD (newElement name)))
  | [] => by simp [updateFirst, hg, newElement]
  | c :: cs => by
    unfold updateFirst
    split_ifs with hc
    · simp [hg, hc]
    · simp [hc, find_updateFirst hg cs]

theorem firstChildElement_updateChild_of_ne (hg : ∀ c, (g c).name = c.name) (h : name ≠ name') :
    (e.updateChild name g).firstChildElement name' = e.firstChildElement name' :=
  find_updateFirst_of_ne hg h e.children

theorem firstChildElement_updateChild (hg : ∀ c, (g c).name = c.name) :
    (e.updateChild name g).firstChildElement name
      = some (g ((e.firstChildElement name).getD (newElement name))) :=
  find_updateFirst hg e.children

/-! ## What can be written -/

variable {n : ℕ}

theorem writable_newElement (hn : isName name) : Writable (n + 1) (newElement name) :=
  .mk hn (fun _ ha => absurd ha List.not_mem_nil) .nil fun _ hc => absurd hc List.not_mem_nil

theorem Writable.setAttribute (h : Writable n e) (hk : isName key) (ht : IsText text) :
    Writable n (e.setAttribute key text) := by
  obtain ⟨hname, hattributes, hnodup, hchildren⟩ := h
  refine .mk hname (fun a ha => ?_) ?_ hchildren
  · rcases List.mem_cons.1 ha with rfl | ha
    · exact ⟨hk, ht⟩
    · exact hattributes a (List.mem_filter.1 ha).1
  · refine List.nodup_cons.2 ⟨fun hm => ?_, hnodup.sublist (List.filter_sublist.map _)⟩
    obtain ⟨a, ha, hak⟩ := List.mem_map.1 hm
    simpa [hak] using (List.mem_filter.1 ha).2

theorem Writable.insertEndChild (h : Writable (n + 1) e) (hc : Writable n c) :
    Writable (n + 1) (e.insertEndChild c) := by
  obtain ⟨hname, hattributes, hnodup, hchildren⟩ := h
  refine .mk hname hattributes hnodup fun d hd => ?_
  rcases List.mem_append.1 hd with hd | hd
  · exact hchildren d hd
  · exact List.mem_singleton.1 hd ▸ hc

theorem forall_mem_updateFirst {p : Element → Prop} (hg : ∀ c, p c → p (g c))
    (hnew : p (newElement name)) :
    ∀ cs : List Element, (∀ c ∈ cs, p c) → ∀ c ∈ updateFirst name g cs, p c
  | [], _, c, hc => List.mem_singleton.1 hc ▸ hg _ hnew
  | d :: cs, h, c, hc => by
    have hd := h d List.mem_cons_self
    have hcs : ∀ c ∈ cs, p c := fun c hc => h c (List.mem_cons_of_mem d hc)
    unfold updateFirst at hc
    split_ifs at hc
    · rcases List.mem_cons.1 hc with rfl | hc
      · exact hg d hd
      · exact hcs c hc
    · rcases List.mem_cons.1 hc with rfl | hc
      · exact hd
      · exact forall_mem_updateFirst hg hnew cs hcs c hc

theorem Writable.updateChild (h : Writable (n + 2) e) (hn : isName name)
    (hg : ∀ c, Writable (n + 1) c → Writable (n + 1) (g c)) :
    Writable (n + 2) (e.updateChild name g) := by
  obtain ⟨hname, hattributes, hnodup, hchildren⟩ := h
  exact .mk hname hattributes hnodup
    (forall_mem_updateFirst hg (writable_newElement hn) e.children hchildren)

end Element

end Xml
