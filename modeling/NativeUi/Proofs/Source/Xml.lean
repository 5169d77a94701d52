import NativeUi.Source.Escape

/-!
# Reading XML back

In a document the text of an element ends at the next angle bracket and the value of an attribute at
the next double quote. What stands before that is decoded by putting characters in place of the
predefined entities. A text that `escapeXml` has written is cut out whole in either place and is
decoded as it was, whatever follows it.
-/
namespace NativeUi.Source.Xml

inductive Entity where
  | amp
  | lt
  | gt
  | quot
  | apos
deriving DecidableEq

namespace Entity

def all : List Entity := [.amp, .lt, .gt, .quot, .apos]

def char : Entity → Char
  | .amp => '&'
  | .lt => '<'
  | .gt => '>'
  | .quot => '"'
  | .apos => '\x27'

def name : Entity → List Char
  | .amp => ['a', 'm', 'p']
  | .lt => ['l', 't']
  | .gt => ['g', 't']
  | .quot => ['q', 'u', 'o', 't']
  | .apos => ['a', 'p', 'o', 's']

def ofName? (name : List Char) : Option Entity := all.find? fun e => e.name == name

def reference (e : Entity) : List Char := '&' :: (e.name ++ [';'])

end Entity

inductive Position where
  | element
  | attribute
deriving DecidableEq

namespace Position

def delimiter : Position → Char
  | .element => '<'
  | .attribute => '"'

def cut (p : Position) : List Char → Option (List Char × List Char)
  | [] => none
  | c :: cs =>
    if c = p.delimiter then some ([], cs) else (p.cut cs).map fun x => (c :: x.1, x.2)

end Position

mutual

/-- Puts characters in place of the entities. An ampersand that starts none of them is a fault. -/
def decode? : List Char → Option (List Char)
  | [] => some []
  | c :: cs => if c = '&' then decodeName? [] cs else (decode? cs).map (c :: ·)

def decodeName? (name : List Char) : List Char → Option (List Char)
  | [] => none
  | c :: cs =>
    if c = ';' then
      match Entity.ofName? name with
      | some e => (decode? cs).map (e.char :: ·)
      | none => none
    else decodeName? (name ++ [c]) cs

end

/-! ### What is written for a character -/

def isMarkup (c : Char) : Bool := c = '<' || c = '>' || c = '"' || c = '\x27'

theorem escapeXmlChar_cases (c : Char) :
    (∃ e : Entity, e.char = c ∧ escapeXmlChar c = e.reference) ∨
      (escapeXmlChar c = [c] ∧ c ≠ '&' ∧ isMarkup c = false) := by
  unfold escapeXmlChar
  split
  · next h => exact .inl ⟨.amp, h.symm, rfl⟩
  split
  · next h => exact .inl ⟨.lt, h.symm, rfl⟩
  split
  · next h => exact .inl ⟨.gt, h.symm, rfl⟩
  split
  · next h => exact .inl ⟨.quot, h.symm, rfl⟩
  split
  · next h => exact .inl ⟨.apos, h.symm, rfl⟩
  · next h1 h2 h3 h4 h5 => exact .inr ⟨rfl, h1, by simp [isMarkup, h2, h3, h4, h5]⟩

theorem isMarkup_of_mem_reference {e : Entity} {c : Char} (h : c ∈ e.reference) :
    isMarkup c = false := by
  have hall : (e.reference.all fun x => !isMarkup x) = true := by cases e <;> decide
  simpa using List.all_eq_true.mp hall c h

theorem ampersand_not_mem_name (e : Entity) : '&' ∉ e.name ++ [';'] := by
  cases e <;> decide

theorem isMarkup_of_mem_escaped {cs : List Char} {c : Char} (h : c ∈ cs.flatMap escapeXmlChar) :
    isMarkup c = false := by
  obtain ⟨x, -, hx⟩ := List.mem_flatMap.mp h
  rcases escapeXmlChar_cases x with ⟨e, -, he⟩ | ⟨he, -, hm⟩
  · rw [he] at hx
    exact isMarkup_of_mem_reference hx
  · rw [he, List.mem_singleton] at hx
    exact hx ▸ hm

theorem reference_of_ampersand {cs front back : List Char}
    (h : cs.flatMap escapeXmlChar = front ++ '&' :: back) :
    ∃ e : Entity, e.reference <+: '&' :: back := by
  induction cs generalizing front with
  | nil =>
    rw [List.flatMap_nil] at h
    exact absurd h.symm (by simp)
  | cons c cs ih =>
    rw [List.flatMap_cons] at h
    rcases List.append_eq_append_iff.mp h with ⟨as, -, hrest⟩ | ⟨bs, hc, hback⟩
    · exact ih hrest
    · -- the ampersand stands in what is written for `c`, or just behind it
      cases bs with
      | nil => exact @ih [] hback.symm
      | cons b bs =>
        obtain ⟨rfl, hback⟩ := List.cons.inj hback
        rcases escapeXmlChar_cases c with ⟨e, -, he⟩ | ⟨he, hne, -⟩
        · rw [he] at hc
          cases front with
          | nil =>
            refine ⟨e, cs.flatMap escapeXmlChar, ?_⟩
            rw [hc, hback, List.nil_append, List.cons_append]
          | cons x front =>
            have hm : '&' ∈ e.name ++ [';'] := by
              rw [(List.cons.inj hc).2]
              simp
            exact absurd hm (ampersand_not_mem_name e)
        · have hm : '&' ∈ escapeXmlChar c := by
            rw [hc]
            simp
          rw [he, List.mem_singleton] at hm
          exact absurd hm.symm hne

/-! ### Reading -/

theorem Position.isMarkup_delimiter (p : Position) : isMarkup p.delimiter = true := by
  cases p <;> decide

theorem Position.cut_append (p : Position) {cs : List Char}
    (h : ∀ c ∈ cs, isMarkup c = false) (rest : List Char) :
    p.cut (cs ++ p.delimiter :: rest) = some (cs, rest) := by
  induction cs with
  | nil => simp [cut]
  | cons c cs ih =>
    have hc : c ≠ p.delimiter := by
      rintro rfl
      exact absurd (h p.delimiter List.mem_cons_self) (by simp [p.isMarkup_delimiter])
    rw [List.cons_append, cut, if_neg hc, ih fun x hx => h x (List.mem_cons_of_mem c hx)]
    rfl

theorem decode?_reference (e : Entity) (rest : List Char) :
    decode? (e.reference ++ rest) = (decode? rest).map (e.char :: ·) := by
  cases e <;> rfl

theorem decode?_escapeXmlChar (c : Char) (rest : List Char) :
    decode? (escapeXmlChar c ++ rest) = (decode? rest).map (c :: ·) := by
  rcases escapeXmlChar_cases c with ⟨e, rfl, he⟩ | ⟨he, hne, -⟩
  · rw [he, decode?_reference]
  · rw [he, List.singleton_append, decode?, if_neg hne]

theorem decode?_escaped (cs : List Char) : decode? (cs.flatMap escapeXmlChar) = some cs := by
  induction cs with
  | nil => rfl
  | cons c cs ih =>
    rw [List.flatMap_cons, decode?_escapeXmlChar, ih]
    rfl

/-- An escaped text in front of a delimiter is cut out whole and decoded to the text. Nothing in it
could open or close something, and each of its ampersands starts an entity. -/
theorem decode_escapeXml (p : Position) (s : String) (rest : List Char) :
    p.cut ((escapeXml s).toList ++ p.delimiter :: rest) = some ((escapeXml s).toList, rest) ∧
      decode? (escapeXml s).toList = some s.toList ∧
      (∀ c ∈ (escapeXml s).toList, c ≠ '<' ∧ c ≠ '>' ∧ c ≠ '"' ∧ c ≠ '\x27') ∧
      ∀ front back, (escapeXml s).toList = front ++ '&' :: back →
        ∃ e : Entity, e.reference <+: '&' :: back := by
  rw [escapeXml, String.toList_ofList]
  have hplain (c : Char) (hc : c ∈ s.toList.flatMap escapeXmlChar) : isMarkup c = false :=
    isMarkup_of_mem_escaped hc
  refine ⟨p.cut_append hplain rest, decode?_escaped s.toList, fun c hc => ?_,
    fun front back => reference_of_ampersand⟩
  simpa [isMarkup, and_assoc] using hplain c hc

def entityText : String := "&amp;lt; \"<&>\x27"

def writtenEntityText : String := "&amp;amp;lt; &quot;&lt;&amp;&gt;&apos;"

theorem decode_escapeXml_entityText :
    escapeXml entityText = writtenEntityText ∧
      Position.attribute.cut (writtenEntityText.toList ++ '"' :: "/><a b=\"".toList) =
        some (writtenEntityText.toList, "/><a b=\"".toList) ∧
      decode? writtenEntityText.toList = some entityText.toList ∧
      ∃ e : Entity, e.reference <+: '&' :: "amp;&gt;&apos;".toList := by
  have htext : escapeXml entityText = writtenEntityText := by decide +kernel
  obtain ⟨hcut, hdecode, -, hentity⟩ :=
    decode_escapeXml .attribute entityText "/><a b=\"".toList
  rw [htext] at hcut hdecode hentity
  exact ⟨htext, hcut, hdecode,
    hentity "&amp;amp;lt; &quot;&lt;".toList "amp;&gt;&apos;".toList (by decide +kernel)⟩

end NativeUi.Source.Xml
