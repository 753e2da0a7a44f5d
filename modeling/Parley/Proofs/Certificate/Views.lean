import Mathlib
import Parley.Certificate.Views
import Parley.Proofs.Certificate.Name

/-!
# What the views of a name hold

However the attributes of a name are grouped and whatever types repeat, the values of a type are
those of all attributes of that type in their order, and the line is the text of all attributes in
their order. The two views together tell the attributes.
-/

namespace Parley.Certificate

namespace Groups
variable {groups : Groups} {type value s : String}

def Ascending (groups : Groups) : Prop := groups.Pairwise (fun a b => a.1 < b.1)

theorem mem_put {g : String × List String} (h : g ∈ put type value groups) :
    g.1 = type ∨ g ∈ groups := by
  induction groups with
  | nil => exact .inl (congrArg Prod.fst (List.mem_singleton.1 h))
  | cons e rest ih =>
    simp only [put] at h
    split_ifs at h with heq hlt
    · rcases List.mem_cons.1 h with rfl | h
      · exact .inl rfl
      · exact .inr (List.mem_cons_of_mem _ h)
    · rcases List.mem_cons.1 h with rfl | h
      · exact .inl rfl
      · exact .inr h
    · rcases List.mem_cons.1 h with rfl | h
      · exact .inr List.mem_cons_self
      · exact (ih h).imp_right (List.mem_cons_of_mem _)

theorem Ascending.put (h : Ascending groups) : Ascending (groups.put type value) := by
  induction groups with
  | nil => exact List.pairwise_singleton ..
  | cons e rest ih =>
    obtain ⟨hfirst, hrest⟩ := List.pairwise_cons.1 h
    simp only [Groups.put]
    split_ifs with heq hlt
    · exact List.pairwise_cons.2 ⟨heq ▸ hfirst, hrest⟩
    · refine List.pairwise_cons.2 ⟨fun g hg => ?_, h⟩
      rcases List.mem_cons.1 hg with rfl | hg
      · exact hlt
      · exact hlt.trans (hfirst g hg)
    · have hbefore : e.1 < type := lt_of_le_of_ne (not_lt.1 hlt) heq
      refine List.pairwise_cons.2 ⟨fun g hg => ?_, ih hrest⟩
      rcases mem_put hg with rfl | hg
      · exact hbefore
      · exact hfirst g hg

theorem put_nonempty (h : ∀ g ∈ groups, g.2 ≠ []) : ∀ g ∈ groups.put type value, g.2 ≠ [] := by
  induction groups with
  | nil => simp [put]
  | cons e rest ih =>
    obtain ⟨hfirst, hrest⟩ := List.forall_mem_cons.1 h
    simp only [put]
    split_ifs
    · exact List.forall_mem_cons.2 ⟨by simp, hrest⟩
    · exact List.forall_mem_cons.2 ⟨by simp, h⟩
    · exact List.forall_mem_cons.2 ⟨hfirst, ih hrest⟩

theorem values_cons (g : String × List String) (groups : Groups) (s : String) :
    values (g :: groups) s = if g.1 = s then g.2 else values groups s := by
  unfold values
  split_ifs with h
  · rw [List.find?_cons_of_pos (by simpa using h)]
    rfl
  · rw [List.find?_cons_of_neg (by simpa using h)]

theorem values_eq_nil (h : ∀ g ∈ groups, g.1 ≠ s) : groups.values s = [] := by
  rw [values, List.find?_eq_none.2 fun g hg => by simpa using h g hg]
  rfl

theorem values_put (h : Ascending groups) :
    (groups.put type value).values s =
      if type = s then groups.values s ++ [value] else groups.values s := by
  induction groups with
  | nil => simp [put, values_cons, values_eq_nil]
  | cons e rest ih =>
    obtain ⟨hfirst, hrest⟩ := List.pairwise_cons.1 h
    rw [put]
    by_cases heq : e.1 = type
    · rw [if_pos heq, values_cons, values_cons, heq]
      split_ifs <;> rfl
    rw [if_neg heq]
    by_cases hlt : type < e.1
    · -- all types here are behind the new one, which had no value so far
      have hnone : ∀ g ∈ e :: rest, g.1 ≠ type :=
        List.forall_mem_cons.2 ⟨hlt.ne', fun g hg => (hlt.trans (hfirst g hg)).ne'⟩
      rw [if_pos hlt, values_cons]
      split_ifs with hs
      · rw [← hs, values_eq_nil hnone]
        rfl
      · rfl
    · rw [if_neg hlt, values_cons, values_cons, ih hrest]
      split_ifs with he hs
      · exact absurd (he.trans hs.symm) heq
      all_goals rfl

theorem values_of_mem (h : Ascending groups) {g : String × List String} (hg : g ∈ groups) :
    groups.values g.1 = g.2 := by
  induction groups with
  | nil => cases hg
  | cons e rest ih =>
    obtain ⟨hfirst, hrest⟩ := List.pairwise_cons.1 h
    rw [values_cons]
    rcases List.mem_cons.1 hg with rfl | hg
    · exact if_pos rfl
    · rw [if_neg (hfirst g hg).ne, ih hrest hg]

theorem attributes_cons (g : String × List String) (groups : Groups) :
    attributes (g :: groups) = g.2.map (⟨g.1, ·⟩) ++ attributes groups := List.flatMap_cons

theorem perm_attributes_put (groups : Groups) (a : Attribute) :
    (groups.put a.type a.value).attributes.Perm (groups.attributes ++ [a]) := by
  induction groups with
  | nil => exact .refl _
  | cons e rest ih =>
    rw [put, attributes_cons]
    split_ifs with heq hlt
    · rw [attributes_cons, heq, List.map_append, List.append_assoc, List.append_assoc]
      exact List.perm_append_comm.append_left _
    · rw [attributes_cons, attributes_cons]
      exact List.perm_append_comm
    · rw [attributes_cons, List.append_assoc]
      exact ih.append_left _

end Groups

theorem Name.values_cons (a : Attribute) (l : List Attribute) (type : String) :
    Name.values ⟨a :: l⟩ type =
      if a.type = type then a.value :: Name.values ⟨l⟩ type else Name.values ⟨l⟩ type := by
  split_ifs with ht
  · simp [Name.values, ht]
  · simp [Name.values, ht]

structure Views.Shows (v : Views) (l : List Attribute) : Prop where
  line : v.line = Name.text ⟨l⟩
  ascending : v.groups.Ascending
  nonempty : ∀ g ∈ v.groups, g.2 ≠ []
  values : ∀ type, v.values type = Name.values ⟨l⟩ type
  perm : v.groups.attributes.Perm l

namespace Views
variable {v : Views} {l : List Attribute}

theorem shows_nil : Shows {} [] := ⟨rfl, .nil, nofun, fun _ => rfl, .refl _⟩

theorem Shows.add (h : v.Shows l) (a : Attribute) : (v.add a).Shows (l ++ [a]) where
  line := by simp [Views.add, h.line, Name.text, String.join_append]
  ascending := h.ascending.put
  nonempty := Groups.put_nonempty h.nonempty
  values type := by
    have hput : (v.add a).values type =
        if a.type = type then v.values type ++ [a.value] else v.values type :=
      Groups.values_put h.ascending
    rw [hput, h.values type, Name.values, Name.values, List.filter_append, List.map_append]
    split_ifs with ht
    · simp [ht]
    · simp [ht]
  perm := (Groups.perm_attributes_put v.groups a).trans (h.perm.append_right [a])

theorem Shows.foldl (h : v.Shows l) (set : List Attribute) :
    (set.foldl Views.add v).Shows (l ++ set) := by
  induction set generalizing v l with
  | nil => simpa using h
  | cons a rest ih =>
    have hrest := ih (h.add a)
    rwa [List.append_assoc] at hrest

theorem shows_views (n : Name) : n.views.Shows n.attributes := shows_nil.foldl n.attributes

/-- How the attributes are grouped makes no difference. -/
theorem views_ofSets (sets : List (List Attribute)) :
    (Name.ofSets sets).views = Views.ofSets sets := List.foldl_flatten

theorem shows_ofSets (sets : List (List Attribute)) : (Views.ofSets sets).Shows sets.flatten :=
  views_ofSets sets ▸ shows_views (Name.ofSets sets)

theorem Shows.count (h : v.Shows l) (type : String) :
    v.count type = l.countP (·.type == type) := by
  rw [Views.count, h.values, Name.values, List.length_map, ← List.countP_eq_length_filter]

theorem exists_split_cons {a b : Attribute} {P : List Attribute → Prop} :
    (∃ before after, a :: l = before ++ b :: after ∧ P before) ↔
      (a = b ∧ P []) ∨ ∃ before after, l = before ++ b :: after ∧ P (a :: before) := by
  constructor
  · rintro ⟨before, after, heq, hP⟩
    cases before with
    | nil => exact .inl ⟨(List.cons.inj heq).1, hP⟩
    | cons c before =>
      obtain ⟨rfl, hrest⟩ := List.cons.inj heq
      exact .inr ⟨before, after, hrest, hP⟩
  · rintro (⟨rfl, hP⟩ | ⟨before, after, rfl, hP⟩)
    · exact ⟨[], l, rfl, hP⟩
    · exact ⟨a :: before, after, rfl, hP⟩

theorem getElem?_values_eq_some_iff {type x : String} {i : Nat} :
    (Name.values ⟨l⟩ type)[i]? = some x ↔
      ∃ before after, l = before ++ ⟨type, x⟩ :: after ∧ before.countP (·.type == type) = i := by
  induction l generalizing i with
  | nil => simp [Name.values]
  | cons a l ih =>
    rw [Name.values_cons, exists_split_cons (P := fun before => before.countP (·.type == type) = i)]
    split_ifs with ht
    · cases i with
      | zero =>
        obtain ⟨t, y⟩ := a
        simp_all
      | succ i => simp [ih, ht]
    · have hne : a ≠ ⟨type, x⟩ := fun h => ht (congrArg Attribute.type h)
      simp [ih, ht, hne]

theorem Shows.types_nodup (h : v.Shows l) : v.types.Nodup :=
  List.pairwise_map.2 (h.ascending.imp fun hlt => hlt.ne)

theorem Shows.mem_types_iff (h : v.Shows l) {type : String} :
    type ∈ v.types ↔ 0 < v.count type := by
  constructor
  · intro hmem
    obtain ⟨g, hg, rfl⟩ := List.mem_map.1 hmem
    rw [Views.count, Views.values, Groups.values_of_mem h.ascending hg]
    exact List.length_pos_of_ne_nil (h.nonempty g hg)
  · intro hpos
    by_contra hnot
    have hnone : v.values type = [] :=
      Groups.values_eq_nil fun g hg heq => hnot (List.mem_map.2 ⟨g, hg, heq⟩)
    rw [Views.count, hnone] at hpos
    exact absurd hpos (lt_irrefl 0)

theorem Shows.sum_count (h : v.Shows l) : (v.types.map v.count).sum = l.length := by
  have hcounts : v.types.map v.count = v.groups.map fun g => g.2.length := by
    rw [Views.types, List.map_map]
    refine List.map_congr_left fun g hg => ?_
    exact congrArg List.length (Groups.values_of_mem h.ascending hg)
  calc (v.types.map v.count).sum
      = (v.groups.map fun g => g.2.length).sum := by rw [hcounts]
    _ = v.groups.attributes.length := by simp [Groups.attributes, List.length_flatMap]
    _ = l.length := h.perm.length_eq

end Views

theorem Attribute.Typed.equals_notMem {a : Attribute} (h : a.Typed) : '=' ∉ a.type.toList :=
  fun hmem => (h.isShown _ hmem).2 rfl

/-- The line tells where the type of the first attribute ends, and the values of this type tell
where its value ends. -/
theorem eq_of_views {l k : List Attribute} (hl : ∀ a ∈ l, a.Typed) (hk : ∀ a ∈ k, a.Typed)
    (htext : chars l = chars k) (hvalues : ∀ type, Name.values ⟨l⟩ type = Name.values ⟨k⟩ type) :
    l = k := by
  induction l generalizing k with
  | nil =>
    cases k with
    | nil => rfl
    | cons b k =>
      rw [chars_cons] at htext
      cases htext
  | cons a l ih =>
    cases k with
    | nil =>
      rw [chars_cons] at htext
      cases htext
    | cons b k =>
      obtain ⟨ha, hrestl⟩ := List.forall_mem_cons.1 hl
      obtain ⟨hb, hrestk⟩ := List.forall_mem_cons.1 hk
      rw [chars_cons, chars_cons] at htext
      obtain ⟨htype, hrest⟩ :=
        cut_at_mark ha.equals_notMem hb.equals_notMem (List.cons.inj htext).2
      have htype : a.type = b.type := String.toList_inj.1 htype
      have hvalue : a.value = b.value := by
        have hfirst := hvalues a.type
        rw [Name.values_cons, Name.values_cons, if_pos rfl, if_pos htype.symm] at hfirst
        exact (List.cons.inj hfirst).1
      have hab : a = b := by
        cases a
        cases b
        simp_all
      subst hab
      congr 1
      refine ih hrestl hrestk (List.append_cancel_left hrest) fun type => ?_
      have htail := hvalues type
      rw [Name.values_cons, Name.values_cons] at htail
      split_ifs at htail with ht
      · exact (List.cons.inj htail).2
      · exact htail

theorem Name.views_eq_iff {n n' : Name} (hn : n.Typed) (hn' : n'.Typed) :
    n.views = n'.views ↔ n = n' := by
  refine ⟨fun h => ?_, congrArg Name.views⟩
  have hshows := Views.shows_views n
  have hshows' := Views.shows_views n'
  rw [← h] at hshows'
  have hline : n.text = n'.text := hshows.line.symm.trans hshows'.line
  have hvalues (type : String) : n.values type = n'.values type :=
    (hshows.values type).symm.trans (hshows'.values type)
  exact congrArg Name.mk (eq_of_views hn hn' (Name.text_eq_iff.1 hline) hvalues)

/-- Of any sets of attributes, the values of a type are those of all attributes of the type, each at
the place that its forerunners of this type leave it; every attribute is one entry of one type; the
line has all attributes one after the other. -/
theorem Views.all_kept (sets : List (List Attribute)) :
    let attributes := sets.flatten
    let n := Name.ofSets sets
    let v := Views.ofSets sets
    n.views = v ∧
      (∀ type, n.values type = v.values type ∧
        v.values type = (attributes.filter (·.type == type)).map (·.value)) ∧
      (∀ type i x, v.value? type i = some x ↔ ∃ before after,
        attributes = before ++ ⟨type, x⟩ :: after ∧ before.countP (·.type == type) = i) ∧
      (∀ type i, v.value? type i = none ↔ v.count type ≤ i) ∧
      (∀ type, v.count type = attributes.countP (·.type == type)) ∧
      v.types.Nodup ∧ (∀ type, type ∈ v.types ↔ 0 < v.count type) ∧
      (v.types.map v.count).sum = attributes.length ∧
      n.text = v.line ∧
      v.line = String.join (attributes.map fun a => "/" ++ a.type ++ "=" ++ a.value) ∧
      v.groups.attributes.Perm attributes := by
  intro attributes n v
  have h : v.Shows attributes := Views.shows_ofSets sets
  refine ⟨Views.views_ofSets sets, fun type => ⟨(h.values type).symm, h.values type⟩,
    fun type i x => ?_, fun type i => List.getElem?_eq_none_iff, h.count, h.types_nodup,
    fun type => h.mem_types_iff, h.sum_count, h.line.symm, h.line, h.perm⟩
  rw [Views.value?, h.values]
  exact Views.getElem?_values_eq_some_iff

example :
    let v := Views.ofSets [[⟨"OU", "Alpha"⟩, ⟨"CN", "host"⟩], [⟨"OU", "Beta"⟩]]
    v.values "OU" = ["Alpha", "Beta"] ∧ v.value? "OU" 2 = none ∧ v.types = ["CN", "OU"] ∧
      v.line = "/OU=Alpha/CN=host/OU=Beta" := by
  decide

end Parley.Certificate
