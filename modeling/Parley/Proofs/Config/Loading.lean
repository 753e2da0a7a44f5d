import Mathlib
import Parley.Proofs.Config.Schema
import Parley.Proofs.Tls.Context

/-!
# What a loaded configuration is good for

Whatever is loaded passes the checks that come later: its address can be listened on, and the TLS
settings made of it name what the document writes, each in its own place, with an identity that is
whole or not there.
-/

namespace Parley.Config
open Yaml (Node)
variable {n : Node} {c : Config}

theorem Tls.validate_eq_ok_iff {t : Tls} :
    t.validate = .ok () ↔ (t.chain.isSome ↔ t.key.isSome) := by
  unfold validate
  cases t.chain <;> cases t.key <;> simp

theorem validate_eq (c : Config) : c.validate =
    if c.version = 1 then
      match c.server.address, c.tls with
      | .error f, _ => .error f
      | .ok _, some t => t.validate
      | .ok _, none => .ok ()
    else .error (.version c.version) := by
  unfold validate
  by_cases hversion : c.version = 1
  · rw [if_pos hversion, hversion]
    cases c.server.address <;> cases c.tls <;> rfl
  · rw [if_neg hversion, if_pos (bne_iff_ne.2 hversion)]
    rfl

theorem validate_eq_ok_iff : c.validate = .ok () ↔
    c.version = 1 ∧ (∃ a, c.server.address = .ok a) ∧
      ∀ t ∈ c.tls, (t.chain.isSome ↔ t.key.isSome) := by
  rw [validate_eq]
  split_ifs with hversion
  · cases c.server.address with
    | error f => simp
    | ok a => cases c.tls <;> simp [hversion, Tls.validate_eq_ok_iff]
  · simp [hversion]

theorem ofNode_eq_ok_iff :
    ofNode n = .ok c ↔ Config.ofNode? n = some c ∧ c.validate = .ok () := by
  unfold ofNode
  cases Config.ofNode? n with
  | none => simp
  | some d =>
    dsimp only
    rw [Option.some_inj]
    constructor
    · intro h
      cases hvalid : d.validate with
      | error f =>
        rw [hvalid] at h
        cases h
      | ok =>
        rw [hvalid] at h
        obtain rfl := Except.ok.inj h
        exact ⟨rfl, hvalid⟩
    · rintro ⟨rfl, hvalid⟩
      rw [hvalid]
      rfl

theorem parse_eq_ok_iff {s : String} : parse s = .ok c ↔
    ∃ n, Node.parse? s = some n ∧ Config.ofNode? n = some c ∧ c.validate = .ok () := by
  unfold parse
  cases Node.parse? s with
  | none => simp
  | some n => simp [ofNode_eq_ok_iff]

def under? (key : String) : Node → Option Node
  | .mapping _ entries => (entries.find? fun e => text? e.1 == some key).map (·.2)
  | _ => none

def given? (v : Node) : Option String := if isAbsent? v = some true then none else text? v

def written? (n : Node) (key : String) : Option String := do
  given? (← under? key (← under? "tls" n))

def Tls.slots : List (String × (Tls → Option String)) :=
  [("certificate_chain_file", (·.chain)), ("private_key_file", (·.key)),
    ("verify_file", (·.verify)), ("dh_params_file", (·.dh)), ("required_hostname", (·.hostname))]

theorem lookup_named (key : String) (entries : List (Node × Node)) :
    (named entries).lookup key = (entries.find? fun e => text? e.1 == some key).map (·.2) := by
  induction entries with
  | nil => rfl
  | cons e rest ih =>
    rw [List.find?_cons]
    cases htext : text? e.1 with
    | none =>
      have hcons : named (e :: rest) = named rest := by simp [named, htext]
      rw [hcons, ih]
      rfl
    | some first =>
      have hcons : named (e :: rest) = (first, e.2) :: named rest := by simp [named, htext]
      rw [hcons, List.lookup_cons]
      by_cases heq : key = first
      · simp [heq]
      · simp [beq_eq_false_iff_ne.2 heq, beq_eq_false_iff_ne.2 (Ne.symm heq), ih]

theorem under?_of_fields? {known : List String} {fields : List (String × Node)}
    (h : fields? known n = some fields) (key : String) : under? key n = fields.lookup key := by
  rcases fields?_cases h with ⟨tag, entries, rfl, -, rfl⟩ | ⟨⟨tag, rfl⟩, rfl⟩
  · exact (lookup_named key entries).symm
  · rfl

theorem field?_text {fields : List (String × Node)} {key : String} {o : Option String}
    (h : field? fields key (optional? text?) none = some o) :
    o = (fields.lookup key).bind given? := by
  unfold field? at h
  cases hlookup : fields.lookup key with
  | none =>
    rw [hlookup] at h
    exact (Option.some.inj h).symm
  | some v =>
    rw [hlookup] at h
    obtain ⟨absent, habsent, h⟩ := Option.bind_eq_some_iff.1 h
    rw [Option.bind_some, given?, habsent]
    cases absent with
    | true => exact (Option.some.inj h).symm
    | false =>
      obtain ⟨text, htext, h⟩ := Option.bind_eq_some_iff.1 h
      rw [if_neg (by simp), htext]
      exact (Option.some.inj h).symm

theorem Tls.eq_written {v : Node} {t : Tls} (h : Tls.ofNode? v = some t) :
    ∀ slot ∈ Tls.slots, slot.2 t = (under? slot.1 v).bind given? := by
  simp only [Tls.ofNode?, Option.bind_eq_bind, Option.bind_eq_some_iff] at h
  obtain ⟨fields, hfields, chain, hchain, key, hkey, verify, hverify, dh, hdh, hostname, hhostname,
    ⟨⟩⟩ := h
  simp only [under?_of_fields? hfields, Tls.slots, List.forall_mem_cons]
  exact ⟨field?_text hchain, field?_text hkey, field?_text hverify, field?_text hdh,
    field?_text hhostname, List.forall_mem_nil _⟩

theorem eq_written (h : Config.ofNode? n = some c) :
    ∀ slot ∈ Tls.slots, c.tls.bind slot.2 = written? n slot.1 := by
  intro slot hslot
  obtain ⟨fields, hfields, -, -, htls, -⟩ := ofNode?_eq_some_iff.1 h
  simp only [written?, under?_of_fields? hfields, Option.bind_eq_bind]
  unfold field? at htls
  cases hlookup : fields.lookup "tls" with
  | none =>
    rw [hlookup] at htls
    rw [← Option.some.inj htls]
    rfl
  | some v =>
    rw [hlookup] at htls
    obtain ⟨absent, habsent, hread⟩ := Option.bind_eq_some_iff.1 htls
    cases absent with
    | true =>
      rw [← Option.some.inj hread]
      cases v with
      | scalar => rfl
      | sequence => rfl
      | mapping => cases habsent
    | false =>
      obtain ⟨t, ht, hsome⟩ := Option.bind_eq_some_iff.1 hread
      rw [← Option.some.inj hsome]
      exact Tls.eq_written ht slot hslot

theorem tlsSettings_eq {υ : Type u} (c : Config) : (c.tlsSettings : Parley.Tls.Settings υ) =
    { chain := (c.tls.bind (·.chain)).map .file
      key := (c.tls.bind (·.key)).map .file
      verify := (c.tls.bind (·.verify)).map .file
      dh := (c.tls.bind (·.dh)).map .file
      hostname := c.tls.bind (·.hostname)
      user := none } := by
  cases htls : c.tls <;> simp [tlsSettings, Tls.settings, htls]

theorem tlsSettings_paired {υ : Type u} (h : ∀ t ∈ c.tls, (t.chain.isSome ↔ t.key.isSome)) :
    (c.tlsSettings : Parley.Tls.Settings υ).chain.isSome ↔
      (c.tlsSettings : Parley.Tls.Settings υ).key.isSome := by
  rw [tlsSettings_eq]
  cases htls : c.tls with
  | none => exact Iff.rfl
  | some t => simpa using h t htls

/-- What is loaded can be used: there is an address to listen on, the settings for TLS hold what the
document writes for each of them and no predicate, and their identity is not half an identity. -/
theorem parse_usable {m : Type → Type} {s : String} (h : parse s = .ok c) :
    c.version = 1 ∧ (∃ a, c.server.address = .ok a) ∧
      (∀ t ∈ c.tls, (t.chain.isSome ↔ t.key.isSome)) ∧
      (∃ n, Node.parse? s = some n ∧ ∀ slot ∈ Tls.slots, c.tls.bind slot.2 = written? n slot.1) ∧
      (c.tlsSettings : Parley.Tls.Settings.Of m) =
        { chain := (c.tls.bind (·.chain)).map .file
          key := (c.tls.bind (·.key)).map .file
          verify := (c.tls.bind (·.verify)).map .file
          dh := (c.tls.bind (·.dh)).map .file
          hostname := c.tls.bind (·.hostname)
          user := none } ∧
      (∀ disk, (c.tlsSettings : Parley.Tls.Settings.Of m).identity disk ≠ .error .noKey ∧
        (c.tlsSettings : Parley.Tls.Settings.Of m).identity disk ≠ .error .noChain) ∧
      (c.tls = none → ∀ backend disk,
        Parley.Tls.Settings.server backend disk (c.tlsSettings : Parley.Tls.Settings.Of m) =
          .ok none) := by
  obtain ⟨n, hparse, hread, hvalid⟩ := parse_eq_ok_iff.1 h
  obtain ⟨hversion, haddress, hpaired⟩ := validate_eq_ok_iff.1 hvalid
  have hwhole (disk f) (hf : (c.tlsSettings : Parley.Tls.Settings.Of m).identity disk = .error f) :
      ¬ f.Unpaired :=
    Parley.Tls.Settings.identity_fault (tlsSettings_paired hpaired) hf
  refine ⟨hversion, haddress, hpaired, ⟨n, hparse, eq_written hread⟩, tlsSettings_eq c,
    fun disk => ⟨fun hkey => ?_, fun hchain => ?_⟩, fun hplain backend disk => ?_⟩
  · exact hwhole disk _ hkey trivial
  · exact hwhole disk _ hchain trivial
  · rw [tlsSettings_eq, hplain]
    exact Parley.Tls.Settings.server_unset backend disk

theorem parse_usable_identity :
    ∃ c, parse "version: 1\ntls:\n  certificate_chain_file: a\n  private_key_file: b\n" = .ok c ∧
      c.version = 1 ∧ (∃ a, c.server.address = .ok a) ∧
      (c.tlsSettings : Parley.Tls.Settings.Of Id) =
        { chain := some (.file "a"), key := some (.file "b") } ∧
      ∀ disk, (c.tlsSettings : Parley.Tls.Settings.Of Id).identity disk ≠ .error .noKey := by
  have hparse : parse "version: 1\ntls:\n  certificate_chain_file: a\n  private_key_file: b\n" =
      .ok { version := 1, tls := some { chain := some "a", key := some "b" } } := by cbv
  obtain ⟨hversion, haddress, -, -, hsettings, hwhole, -⟩ := parse_usable (m := Id) hparse
  exact ⟨_, hparse, hversion, haddress, hsettings, fun disk => (hwhole disk).1⟩

end Parley.Config
