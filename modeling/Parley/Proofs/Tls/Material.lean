import Mathlib
import Parley.Proofs.Except
import Parley.Tls.Material

/-!
# What the sources hold

A reader of TLS material gives what its source holds and nothing else, and whatever keeps it from
that shows as a certificate error.
-/

namespace Parley.Tls

section
variable {φ ψ α β : Type} {report : φ → Error} {x : Except φ α} {k : α → Except φ β}

def Coded (report : φ → Error) (x : Except φ α) : Prop :=
  ∀ f, x = .error f → (report f).code = .certificate

theorem coded_ok (a : α) : Coded report (.ok a) := nofun

theorem coded_error {f : φ} (h : (report f).code = .certificate) :
    Coded report (.error f : Except φ α) := by
  rintro _ ⟨⟩
  exact h

theorem Coded.bind (hx : Coded report x) (hk : ∀ a, Coded report (k a)) :
    Coded report (x >>= k) := by
  cases x with
  | error f => exact coded_error (hx f rfl)
  | ok a => exact hk a

theorem Coded.mapM (hk : ∀ a, Coded report (k a)) (l : List α) : Coded report (l.mapM k) := by
  induction l with
  | nil => exact coded_ok []
  | cons a rest ih =>
    rw [List.mapM_cons]
    exact (hk a).bind fun b => ih.bind fun bs => coded_ok (b :: bs)

theorem Coded.error_iff {good : Prop} (hx : Coded report x) (hok : (∃ a, x = .ok a) ↔ good) :
    (∃ f, x = .error f ∧ (report f).code = .certificate) ↔ ¬ good := by
  rw [← hok]
  cases x with
  | error f => exact ⟨fun _ => by simp, fun _ => ⟨f, rfl, hx f rfl⟩⟩
  | ok a => exact ⟨by simp, fun h => absurd ⟨a, rfl⟩ h⟩

theorem Coded.mapError {outer : ψ → Error} {wrap : φ → ψ}
    (hx : Coded (fun f => outer (wrap f)) x) : Coded outer (x.mapError wrap) := by
  cases x with
  | error f => exact coded_error (hx f rfl)
  | ok a => exact coded_ok a

end

variable {disk : Disk} {source : Source}

theorem Source.coded_load (source : Source) : Coded id (source.load disk) := by
  cases source with
  | memory pem => exact coded_ok pem
  | file path => exact Coded.mapError fun _ _ => rfl

namespace Material

theorem coded_load (source : Source) : Coded Fault.toError (load disk source) :=
  Coded.mapError source.coded_load

theorem load_eq_ok_iff {pem : Bytes} : load disk source = .ok pem ↔ source.load disk = .ok pem :=
  mapError_eq_ok

def HoldsCertificates (disk : Disk) (source : Source) (ders : List Bytes) : Prop :=
  ders ≠ [] ∧ ∃ pem, source.load disk = .ok pem ∧ (Pem.sections pem).clean = true ∧
    ((Pem.sections pem).read.filter (·.label == .certificate)).map (·.content) = ders

def HoldsKey (disk : Disk) (source : Source) (key : Pem.Section) : Prop :=
  ∃ pem, source.load disk = .ok pem ∧ (Pem.sections pem).read.find? (·.label.isKey) = some key

def HoldsAnchors (disk : Disk) (source : Source) (a : Anchors) : Prop :=
  ∃ ders, HoldsCertificates disk source ders ∧
    ders.map Certificate.Strict.anchor? = a.store.map some ∧
    ders.map Certificate.read = a.certificates.map .ok

def HoldsDh (disk : Disk) (source : Source) : Prop :=
  ∃ pem, source.load disk = .ok pem ∧
    ∃ b, .ok b ∈ Pem.blocks pem ∧ b.label = Bytes.ofString "DH PARAMETERS"

theorem certificates_eq_ok_iff {ders : List Bytes} :
    certificates disk source = .ok ders ↔ HoldsCertificates disk source ders := by
  simp only [certificates, bind_eq_ok, load_eq_ok_iff]
  constructor
  · rintro ⟨pem, hload, h⟩
    split_ifs at h with hclean
    · generalize hfound : List.map _ _ = found at h
      cases found with
      | nil => cases h
      | cons der rest =>
        obtain rfl := Except.ok.inj h
        exact ⟨List.cons_ne_nil _ _, pem, hload, hclean, hfound⟩
    · cases h
  · rintro ⟨hne, pem, hload, hclean, hfound⟩
    refine ⟨pem, hload, ?_⟩
    rw [if_pos hclean, hfound]
    cases ders with
    | nil => exact absurd rfl hne
    | cons der rest => rfl

theorem coded_certificates (source : Source) :
    Coded Fault.toError (certificates disk source) := by
  refine (coded_load source).bind fun pem => ?_
  dsimp only
  split_ifs
  · split
    · exact coded_error rfl
    · exact coded_ok _
  · exact coded_error rfl

theorem privateKey_eq_ok_iff {key : Pem.Section} :
    privateKey disk source = .ok key ↔ HoldsKey disk source key := by
  simp only [privateKey, bind_eq_ok, load_eq_ok_iff]
  refine exists_congr fun pem => and_congr_right fun _ => ?_
  cases (Pem.sections pem).read.find? (·.label.isKey) with
  | none => exact ⟨nofun, nofun⟩
  | some found =>
    exact ⟨fun h => congrArg some (Except.ok.inj h), fun h => congrArg _ (Option.some.inj h)⟩

theorem coded_privateKey (source : Source) : Coded Fault.toError (privateKey disk source) := by
  refine (coded_load source).bind fun pem => ?_
  split
  · exact coded_ok _
  · exact coded_error rfl

def Fault.Unpaired : Fault → Prop
  | .noKey | .noChain => True
  | _ => False

variable {f : Fault}

theorem load_fault (h : load disk source = .error f) : ¬ f.Unpaired := by
  unfold load at h
  cases hload : source.load disk with
  | error e =>
    rw [hload] at h
    obtain rfl := Except.error.inj h
    exact id
  | ok pem =>
    rw [hload] at h
    cases h

theorem certificates_fault (h : certificates disk source = .error f) : ¬ f.Unpaired := by
  rcases bind_eq_error.1 h with hload | ⟨pem, -, hread⟩
  · exact load_fault hload
  · dsimp only at hread
    split_ifs at hread
    · split at hread
      · obtain rfl := Except.error.inj hread
        exact id
      · cases hread
    · obtain rfl := Except.error.inj hread
      exact id

theorem privateKey_fault (h : privateKey disk source = .error f) : ¬ f.Unpaired := by
  rcases bind_eq_error.1 h with hload | ⟨pem, -, hread⟩
  · exact load_fault hload
  · split at hread
    · cases hread
    · obtain rfl := Except.error.inj hread
      exact id

end Material

namespace Settings
open Material
variable {υ : Type u} {s : Settings υ}

theorem identity_eq_none_iff : s.identity disk = .ok none ↔ s.chain = none ∧ s.key = none := by
  unfold identity
  cases s.chain with
  | none => cases s.key <;> simp [pure, Except.pure, throw, throwThe, MonadExceptOf.throw]
  | some chain =>
    cases s.key with
    | none => exact ⟨nofun, nofun⟩
    | some key =>
      simp only [bind_eq_ok]
      exact ⟨nofun, nofun⟩

theorem identity_eq_some_iff {i : Identity} : s.identity disk = .ok (some i) ↔
    ∃ chain ∈ s.chain, ∃ key ∈ s.key,
      HoldsCertificates disk chain i.chain ∧ HoldsKey disk key i.key := by
  unfold identity
  cases s.chain with
  | none => cases s.key <;> exact ⟨nofun, nofun⟩
  | some chain =>
    cases s.key with
    | none => exact ⟨nofun, nofun⟩
    | some key =>
      simp only [bind_eq_ok, certificates_eq_ok_iff, privateKey_eq_ok_iff]
      constructor
      · rintro ⟨ders, hders, found, hfound, h⟩
        obtain rfl := Option.some.inj (Except.ok.inj h)
        exact ⟨chain, rfl, key, rfl, hders, hfound⟩
      · rintro ⟨_, ⟨⟩, _, ⟨⟩, hders, hfound⟩
        exact ⟨i.chain, hders, i.key, hfound, rfl⟩

theorem coded_identity (s : Settings υ) : Coded Fault.toError (s.identity disk) := by
  unfold identity
  split
  · exact coded_ok _
  · exact (coded_certificates _).bind fun ders => (coded_privateKey _).bind fun key => coded_ok _
  · exact coded_error rfl
  · exact coded_error rfl

theorem identity_fault {f : Fault} (hpaired : s.chain.isSome ↔ s.key.isSome)
    (h : s.identity disk = .error f) : ¬ f.Unpaired := by
  unfold identity at h
  cases hchain : s.chain with
  | none =>
    have hkey : s.key = none := by simpa [hchain] using hpaired
    rw [hchain, hkey] at h
    cases h
  | some chain =>
    obtain ⟨key, hkey⟩ : ∃ key, s.key = some key := by
      simpa [hchain, Option.isSome_iff_exists] using hpaired
    rw [hchain, hkey] at h
    rcases bind_eq_error.1 h with hchain | ⟨ders, -, h⟩
    · exact certificates_fault hchain
    · rcases bind_eq_error.1 h with hkey | ⟨_, -, h⟩
      · exact privateKey_fault hkey
      · cases h

theorem anchor_eq_ok_iff {text : String} {der : Bytes}
    {found : Certificate.Strict.Anchor × Certificate} :
    anchor text der = .ok found ↔
      Certificate.Strict.anchor? der = some found.1 ∧ Certificate.read der = .ok found.2 := by
  simp only [anchor, bind_eq_ok, mapError_eq_ok]
  cases hanchor : Certificate.Strict.anchor? der with
  | none => exact ⟨by rintro ⟨c, -, ⟨⟩⟩, nofun⟩
  | some a =>
    constructor
    · rintro ⟨c, hread, h⟩
      obtain rfl := Except.ok.inj h
      exact ⟨rfl, hread⟩
    · rintro ⟨h, hread⟩
      obtain rfl := Option.some.inj h
      exact ⟨found.2, hread, rfl⟩

theorem coded_anchor (text : String) (der : Bytes) : Coded Fault.toError (anchor text der) := by
  refine (Coded.mapError fun _ _ => rfl).bind fun c => ?_
  split
  · exact coded_ok _
  · exact coded_error rfl

theorem mapM_anchor_eq_ok_iff {text : String} {ders : List Bytes}
    {found : List (Certificate.Strict.Anchor × Certificate)} :
    ders.mapM (anchor text) = .ok found ↔
      ders.map Certificate.Strict.anchor? = (found.map (·.1)).map some ∧
        ders.map Certificate.read = (found.map (·.2)).map .ok := by
  induction ders generalizing found with
  | nil =>
    cases found with
    | nil => exact ⟨fun _ => ⟨rfl, rfl⟩, fun _ => rfl⟩
    | cons => exact ⟨nofun, nofun⟩
  | cons der rest ih =>
    rw [List.mapM_cons]
    simp only [bind_eq_ok, anchor_eq_ok_iff, ih]
    cases found with
    | nil => exact ⟨by rintro ⟨_, -, _, -, ⟨⟩⟩, nofun⟩
    | cons first others =>
      constructor
      · rintro ⟨_, ⟨hanchor, hread⟩, _, ⟨hanchors, hreads⟩, ⟨⟩⟩
        simp only [List.map_cons, hanchor, hread, hanchors, hreads, and_self]
      · rintro ⟨hanchors, hreads⟩
        obtain ⟨hanchor, hanchors⟩ := List.cons.inj hanchors
        obtain ⟨hread, hreads⟩ := List.cons.inj hreads
        exact ⟨first, ⟨hanchor, hread⟩, others, ⟨hanchors, hreads⟩, rfl⟩

theorem anchors_eq_none_iff : s.anchors disk = .ok none ↔ s.verify = none := by
  unfold anchors
  cases s.verify with
  | none => exact ⟨fun _ => rfl, fun _ => rfl⟩
  | some source =>
    simp only [bind_eq_ok]
    exact ⟨by rintro ⟨_, -, _, -, ⟨⟩⟩, nofun⟩

theorem anchors_eq_some_iff {a : Anchors} : s.anchors disk = .ok (some a) ↔
    ∃ source ∈ s.verify, HoldsAnchors disk source a := by
  unfold anchors
  cases s.verify with
  | none => exact ⟨nofun, nofun⟩
  | some source =>
    simp only [bind_eq_ok, certificates_eq_ok_iff, mapM_anchor_eq_ok_iff]
    constructor
    · rintro ⟨ders, hders, found, ⟨hstore, hread⟩, h⟩
      obtain rfl := Option.some.inj (Except.ok.inj h)
      exact ⟨source, rfl, ders, hders, hstore, hread⟩
    · rintro ⟨_, ⟨⟩, ders, hders, hstore, hread⟩
      have hlength : a.store.length = a.certificates.length := by
        have hone := congrArg List.length hstore
        have htwo := congrArg List.length hread
        simp only [List.length_map] at hone htwo
        exact hone.symm.trans htwo
      have hfst : (a.store.zip a.certificates).map (·.1) = a.store :=
        List.map_fst_zip hlength.le
      have hsnd : (a.store.zip a.certificates).map (·.2) = a.certificates :=
        List.map_snd_zip hlength.ge
      refine ⟨ders, hders, a.store.zip a.certificates, ⟨?_, ?_⟩, ?_⟩
      · rw [hfst]
        exact hstore
      · rw [hsnd]
        exact hread
      · rw [hfst, hsnd]
        rfl

theorem coded_anchors (s : Settings υ) : Coded Fault.toError (s.anchors disk) := by
  unfold anchors
  split
  · exact coded_ok _
  · refine (coded_certificates _).bind fun ders => ?_
    exact (Coded.mapM (coded_anchor _) ders).bind fun found => coded_ok _

theorem checkDh_eq_ok_iff : s.checkDh disk = .ok () ↔ ∀ source ∈ s.dh, HoldsDh disk source := by
  unfold checkDh
  cases s.dh with
  | none => exact ⟨fun _ => nofun, fun _ => rfl⟩
  | some source =>
    have hany (pem : Bytes) : (Pem.blocks pem).any isDhBlock = true ↔
        ∃ b, .ok b ∈ Pem.blocks pem ∧ b.label = Bytes.ofString "DH PARAMETERS" := by
      rw [List.any_eq_true]
      constructor
      · rintro ⟨b | b, hmem, hb⟩
        · cases hb
        · exact ⟨b, hmem, beq_iff_eq.1 hb⟩
      · rintro ⟨b, hmem, hb⟩
        exact ⟨.ok b, hmem, beq_iff_eq.2 hb⟩
    simp only [bind_eq_ok, load_eq_ok_iff]
    constructor
    · rintro ⟨pem, hload, h⟩ _ ⟨⟩
      split_ifs at h with hblock
      exact ⟨pem, hload, (hany pem).1 hblock⟩
    · intro h
      obtain ⟨pem, hload, hblock⟩ := h source rfl
      exact ⟨pem, hload, by rw [if_pos ((hany pem).2 hblock)]; rfl⟩

theorem coded_checkDh (s : Settings υ) : Coded Fault.toError (s.checkDh disk) := by
  unfold checkDh
  split
  · exact coded_ok _
  · refine (coded_load _).bind fun pem => ?_
    split_ifs
    · exact coded_ok _
    · exact coded_error rfl

end Settings
end Parley.Tls
