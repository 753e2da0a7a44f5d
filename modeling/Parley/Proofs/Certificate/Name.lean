import Mathlib
import Parley.Certificate.Name
import Parley.Proofs.Asn1.Oid

/-!
# What the text of a name tells

The text of a name runs its attributes together with no mark where a value ends, so a value that
ends in the text of an attribute reads as two. Names without such values are told apart by their
texts, and every text belongs to exactly one of them.
-/

namespace Parley.Certificate
open Asn1 (Oid)

def IsType (t : String) : Prop := ∃ o : Oid, o.name = t

def Attribute.Typed (a : Attribute) : Prop := IsType a.type

/-- The value does not end in the text of an attribute. -/
def Attribute.Plain (a : Attribute) : Prop :=
  ∀ (x : String) (b : Attribute), b.Typed → a.value ≠ x ++ b.text

def Name.Typed (n : Name) : Prop := ∀ a ∈ n.attributes, a.Typed

def Name.Plain (n : Name) : Prop := ∀ a ∈ n.attributes, a.Plain

theorem Attribute.toList_text (a : Attribute) :
    a.text.toList = '/' :: (a.type.toList ++ '=' :: a.value.toList) := by
  simp [Attribute.text]

def chars (l : List Attribute) : List Char := l.flatMap fun a => a.text.toList

theorem chars_cons (a : Attribute) (l : List Attribute) :
    chars (a :: l) = '/' :: (a.type.toList ++ '=' :: (a.value.toList ++ chars l)) := by
  simp [chars, Attribute.toList_text]

theorem chars_append (l k : List Attribute) : chars (l ++ k) = chars l ++ chars k :=
  List.flatMap_append

theorem Name.toList_text (n : Name) : n.text.toList = chars n.attributes := by
  simp [Name.text, chars, String.toList_join, List.flatMap_map]

theorem Name.text_eq_iff {n n' : Name} :
    n.text = n'.text ↔ chars n.attributes = chars n'.attributes := by
  rw [← String.toList_inj, Name.toList_text, Name.toList_text]

theorem head_chars {c : Char} {r : List Char} {l : List Attribute} (h : c :: r = chars l) :
    c = '/' := by
  cases l with
  | nil => cases h
  | cons a l =>
    rw [chars_cons] at h
    exact (List.cons.inj h).1

theorem Attribute.Typed.isShown {a : Attribute} (h : a.Typed) :
    ∀ c ∈ a.type.toList, Oid.IsShown c := by
  obtain ⟨o, ho⟩ := h
  rw [← ho]
  exact Oid.isShown_name o

theorem cut_at_mark {mark : Char} {x y r s : List Char} (hx : mark ∉ x) (hy : mark ∉ y)
    (h : x ++ mark :: r = y ++ mark :: s) : x = y ∧ r = s := by
  induction x generalizing y with
  | nil =>
    cases y with
    | nil => exact ⟨rfl, (List.cons.inj h).2⟩
    | cons d y => exact absurd (List.mem_cons.2 (.inl (List.cons.inj h).1)) hy
  | cons c x ih =>
    rw [List.mem_cons, not_or] at hx
    cases y with
    | nil => exact absurd (List.cons.inj h).1.symm hx.1
    | cons d y =>
      rw [List.mem_cons, not_or] at hy
      obtain ⟨hcd, htail⟩ := List.cons.inj h
      obtain ⟨hxy, hrs⟩ := ih hx.2 hy.2 htail
      exact ⟨by rw [hcd, hxy], hrs⟩

/-- What stands in front of one list of attributes in the text of another is no part of a value: it
begins where an attribute begins. -/
theorem surplus_is_text {l k : List Attribute} {u : List Char} (hl : ∀ a ∈ l, a.Typed)
    (h : chars l = u ++ chars k) : u = [] ∨ ∃ b : Attribute, b.Typed ∧ u = b.text.toList := by
  cases l with
  | nil => exact .inl (List.append_eq_nil_iff.1 h.symm).1
  | cons a l =>
    have ha := hl a (List.mem_cons_self ..)
    cases u with
    | nil => exact .inl rfl
    | cons c u =>
      right
      rw [chars_cons, List.cons_append] at h
      obtain ⟨rfl, htail⟩ := List.cons.inj h
      have hcut : (a.type.toList ++ ['=']) ++ (a.value.toList ++ chars l) = u ++ chars k := by
        simpa using htail
      rcases List.append_eq_append_iff.1 hcut with ⟨v, hu, -⟩ | ⟨v, hu, hk⟩
      · refine ⟨⟨a.type, String.ofList v⟩, ha, ?_⟩
        rw [Attribute.toList_text, String.toList_ofList, hu]
        simp
      · -- the other list cannot begin inside the type, which has no slash
        cases v with
        | nil =>
          refine ⟨⟨a.type, ""⟩, ha, ?_⟩
          rw [Attribute.toList_text, ← List.append_nil u, ← hu]
          simp
        | cons d v =>
          rw [List.cons_append] at hk
          have hd : '/' ∈ a.type.toList ++ ['='] := by
            rw [hu, head_chars hk.symm]
            simp
          rcases List.mem_append.1 hd with hd | hd
          · exact absurd rfl (ha.isShown '/' hd).1
          · exact absurd (List.mem_singleton.1 hd) (by decide)

theorem Attribute.Plain.no_surplus {a : Attribute} (ha : a.Plain) {v u : List Char}
    (hvalue : a.value.toList = v ++ u) : ¬ ∃ b : Attribute, b.Typed ∧ u = b.text.toList := by
  rintro ⟨b, hb, rfl⟩
  apply ha (String.ofList v) b hb
  rw [← String.toList_inj, String.toList_append, String.toList_ofList]
  exact hvalue

theorem value_eq {a b : Attribute} {l k : List Attribute} (ha : a.Plain) (hb : b.Plain)
    (hl : ∀ a ∈ l, a.Typed) (hk : ∀ a ∈ k, a.Typed)
    (h : a.value.toList ++ chars l = b.value.toList ++ chars k) :
    a.value = b.value ∧ chars l = chars k := by
  rcases List.append_eq_append_iff.1 h with ⟨u, hvalue, hrest⟩ | ⟨u, hvalue, hrest⟩
  · obtain rfl := (surplus_is_text hl hrest).resolve_right (hb.no_surplus hvalue)
    rw [List.append_nil] at hvalue
    exact ⟨String.toList_inj.1 hvalue.symm, hrest⟩
  · obtain rfl := (surplus_is_text hk hrest).resolve_right (ha.no_surplus hvalue)
    rw [List.append_nil] at hvalue
    exact ⟨String.toList_inj.1 hvalue, hrest.symm⟩

theorem eq_of_chars_eq {l k : List Attribute} (hl : ∀ a ∈ l, a.Typed ∧ a.Plain)
    (hk : ∀ a ∈ k, a.Typed ∧ a.Plain) (h : chars l = chars k) : l = k := by
  induction l generalizing k with
  | nil =>
    cases k with
    | nil => rfl
    | cons b k =>
      rw [chars_cons] at h
      cases h
  | cons a l ih =>
    cases k with
    | nil =>
      rw [chars_cons] at h
      cases h
    | cons b k =>
      rw [List.forall_mem_cons] at hl hk
      rw [chars_cons, chars_cons] at h
      obtain ⟨htype, hrest⟩ := cut_at_mark (fun hc => (hl.1.1.isShown '=' hc).2 rfl)
        (fun hc => (hk.1.1.isShown '=' hc).2 rfl) (List.cons.inj h).2
      obtain ⟨hvalue, hrest⟩ := value_eq hl.1.2 hk.1.2 (fun a ha => (hl.2 a ha).1)
        (fun a ha => (hk.2 a ha).1) hrest
      have hab : a = b := by
        cases a
        cases b
        exact congrArg₂ Attribute.mk (String.toList_inj.1 htype) hvalue
      rw [hab, ih hl.2 hk.2 hrest]

theorem Name.eq_of_text_eq {n n' : Name} (hn : n.Typed) (hn' : n'.Typed) (hplain : n.Plain)
    (hplain' : n'.Plain) (h : n.text = n'.text) : n = n' := by
  have hattributes : n.attributes = n'.attributes :=
    eq_of_chars_eq (fun a ha => ⟨hn a ha, hplain a ha⟩) (fun a ha => ⟨hn' a ha, hplain' a ha⟩)
      (Name.text_eq_iff.1 h)
  exact congrArg Name.mk hattributes

theorem Name.text_eq_text_iff {n n' : Name} (hn : n.Typed) (hn' : n'.Typed) (hplain : n.Plain)
    (hplain' : n'.Plain) : n.text = n'.text ↔ n = n' :=
  ⟨Name.eq_of_text_eq hn hn' hplain hplain', congrArg Name.text⟩

theorem Attribute.plain_of_notMem {a : Attribute} {c : Char} (hc : c = '/' ∨ c = '=')
    (h : c ∉ a.value.toList) : a.Plain := by
  intro x b _ hvalue
  apply h
  rw [hvalue, String.toList_append, Attribute.toList_text]
  rcases hc with rfl | rfl
  · simp
  · simp

def HasPlain (text : List Char) : Prop :=
  ∃ l : List Attribute, (∀ a ∈ l, a.Typed ∧ a.Plain) ∧ chars l = text

theorem HasPlain.append {s t : List Char} (hs : HasPlain s) (ht : HasPlain t) :
    HasPlain (s ++ t) := by
  obtain ⟨l, hl, rfl⟩ := hs
  obtain ⟨k, hk, rfl⟩ := ht
  exact ⟨l ++ k, List.forall_mem_append.2 ⟨hl, hk⟩, chars_append l k⟩

/-- An attribute is cut where its value begins to read as another one, until nothing does. The
induction is on how long the value is. -/
theorem hasPlain_attribute (a : Attribute) (ha : a.Typed) : HasPlain a.text.toList := by
  by_cases hplain : a.Plain
  · exact ⟨[a], by simp [ha, hplain], by simp [chars]⟩
  · simp only [Attribute.Plain, not_forall, not_not] at hplain
    obtain ⟨x, b, hb, hvalue⟩ := hplain
    have hlen : a.value.length = x.length + b.text.length := by
      rw [hvalue, String.length_append]
    have htext : b.text.length = b.type.length + b.value.length + 2 := by
      simp only [Attribute.text, String.length_append]
      have hslash : "/".length = 1 := rfl
      have hequals : "=".length = 1 := rfl
      omega
    have hfirst := hasPlain_attribute ⟨a.type, x⟩ ha
    have hsecond := hasPlain_attribute b hb
    have hcut : a.text.toList = (Attribute.mk a.type x).text.toList ++ b.text.toList := by
      rw [Attribute.toList_text, Attribute.toList_text ⟨a.type, x⟩, hvalue]
      simp
    rw [hcut]
    exact hfirst.append hsecond
termination_by a.value.length
decreasing_by
  all_goals omega

theorem hasPlain_chars {l : List Attribute} (hl : ∀ a ∈ l, a.Typed) : HasPlain (chars l) := by
  induction l with
  | nil => exact ⟨[], nofun, rfl⟩
  | cons a l ih =>
    rw [List.forall_mem_cons] at hl
    exact (hasPlain_attribute a hl.1).append (ih hl.2)

theorem Name.exists_plain {n : Name} (hn : n.Typed) :
    ∃ p : Name, p.Typed ∧ p.Plain ∧ p.text = n.text := by
  obtain ⟨k, hk, hchars⟩ := hasPlain_chars hn
  exact ⟨⟨k⟩, fun a ha => (hk a ha).1, fun a ha => (hk a ha).2, Name.text_eq_iff.2 hchars⟩

end Parley.Certificate
