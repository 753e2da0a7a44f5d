import Mathlib
import Parley.Proofs.Tls.Material
import Parley.Tls.Handshake

/-!
# From settings to contexts

A context is made of all that the settings name, or not at all. A listener is plain only when they
name nothing that would make it otherwise.
-/

namespace Parley.Tls

namespace Context

theorem coded_material {α : Type} {x : Except Material.Fault α}
    (h : Coded Material.Fault.toError x) : Coded Fault.toError (x.mapError .material) := by
  refine Coded.mapError ?_
  exact h

theorem coded_reported {α : Type} {x : Except String α} {report : String → Fault}
    (h : ∀ cause, (report cause).toError.code = .certificate) :
    Coded Fault.toError (x.mapError report) :=
  Coded.mapError fun cause _ => h cause

end Context

namespace Settings
open Material
variable {m : Type → Type} {b : Backend} {disk : Disk} {s : Of m}

structure Complete (disk : Disk) (s : Of m) : Prop where
  chain : ∀ source ∈ s.chain, ∃ ders, HoldsCertificates disk source ders
  key : ∀ source ∈ s.key, ∃ key, HoldsKey disk source key
  verify : ∀ source ∈ s.verify, ∃ a, HoldsAnchors disk source a
  paired : s.chain.isSome ↔ s.key.isSome

/-- For a server the DH parameters count too, and anchors are of no use without an identity. -/
structure ServerComplete (disk : Disk) (s : Of m) : Prop extends Complete disk s where
  dh : ∀ source ∈ s.dh, HoldsDh disk source
  serves : s.verify.isSome → s.chain.isSome

/-- The library has nothing against what a client offers. -/
structure FitsClient (b : Backend) (disk : Disk) (s : Of m) : Prop where
  configured : b.configure = .ok ()
  identity : ∀ i, s.identity disk = .ok (some i) → b.clientIdentity i = .ok ()

/-- The library has nothing against what a server shows and checks its clients with, if it shows
anything. -/
def FitsServer (b : Backend) (disk : Disk) (s : Of m) : Prop :=
  ∀ i, s.identity disk = .ok (some i) → b.configure = .ok () ∧
    (∀ v, verifier disk s = .ok (some v) → b.clientCheck v.anchors = .ok ()) ∧
    b.serverIdentity i = .ok ()

theorem identity_isOk_iff : (∃ i, s.identity disk = .ok i) ↔
    (∀ source ∈ s.chain, ∃ ders, HoldsCertificates disk source ders) ∧
      (∀ source ∈ s.key, ∃ key, HoldsKey disk source key) ∧
      (s.chain.isSome ↔ s.key.isSome) := by
  constructor
  · rintro ⟨i | i, hi⟩
    · obtain ⟨hchain, hkey⟩ := identity_eq_none_iff.1 hi
      rw [hchain, hkey]
      exact ⟨nofun, nofun, Iff.rfl⟩
    · obtain ⟨chain, hchain, key, hkey, hders, hheld⟩ := identity_eq_some_iff.1 hi
      rw [hchain, hkey]
      refine ⟨?_, ?_, by simp⟩
      · rintro _ ⟨⟩
        exact ⟨i.chain, hders⟩
      · rintro _ ⟨⟩
        exact ⟨i.key, hheld⟩
  · rintro ⟨hchains, hkeys, hpaired⟩
    cases hchain : s.chain with
    | none =>
      have hkey : s.key = none := by simpa [hchain] using hpaired
      exact ⟨none, identity_eq_none_iff.2 ⟨hchain, hkey⟩⟩
    | some chain =>
      obtain ⟨key, hkey⟩ : ∃ key, s.key = some key := by
        simpa [hchain, Option.isSome_iff_exists] using hpaired
      obtain ⟨ders, hders⟩ := hchains chain hchain
      obtain ⟨held, hheld⟩ := hkeys key hkey
      exact ⟨some ⟨ders, held⟩, identity_eq_some_iff.2 ⟨chain, hchain, key, hkey, hders, hheld⟩⟩

theorem verifier_eq_none_iff : verifier disk s = .ok none ↔ s.verify = none := by
  simp only [verifier, bind_eq_ok]
  constructor
  · rintro ⟨a | a, ha, h⟩
    · exact anchors_eq_none_iff.1 ha
    · cases h
  · intro hverify
    exact ⟨none, anchors_eq_none_iff.2 hverify, rfl⟩

theorem verifier_eq_some_iff {v : Verifier m} : verifier disk s = .ok (some v) ↔
    ∃ source ∈ s.verify, HoldsAnchors disk source v.anchors ∧ v.policy = .ofSettings s := by
  simp only [verifier, bind_eq_ok]
  constructor
  · rintro ⟨a | a, ha, h⟩
    · cases h
    · obtain rfl := Option.some.inj (Except.ok.inj h)
      obtain ⟨source, hsource, hheld⟩ := anchors_eq_some_iff.1 ha
      exact ⟨source, hsource, hheld, rfl⟩
  · rintro ⟨source, hsource, hheld, hpolicy⟩
    exact ⟨some v.anchors, anchors_eq_some_iff.2 ⟨source, hsource, hheld⟩, by rw [← hpolicy]; rfl⟩

theorem verifier_of_set {v : Option (Verifier m)} (h : verifier disk s = .ok v) {source : Source}
    (hsource : source ∈ s.verify) :
    ∃ a, HoldsAnchors disk source a ∧ v = some ⟨a, .ofSettings s⟩ := by
  cases v with
  | none =>
    rw [verifier_eq_none_iff.1 h] at hsource
    cases hsource
  | some v =>
    obtain ⟨_, hset, hheld, hpolicy⟩ := verifier_eq_some_iff.1 h
    cases Option.mem_unique hset hsource
    exact ⟨v.anchors, hheld, by rw [← hpolicy]⟩

theorem verifier_of_unset {v : Option (Verifier m)} (h : verifier disk s = .ok v)
    (hverify : s.verify = none) : v = none :=
  Except.ok.inj (h.symm.trans (verifier_eq_none_iff.2 hverify))

theorem verifier_isOk_iff : (∃ v, verifier disk s = .ok v) ↔
    ∀ source ∈ s.verify, ∃ a, HoldsAnchors disk source a := by
  constructor
  · rintro ⟨v, hv⟩ source hsource
    obtain ⟨a, ha, -⟩ := verifier_of_set hv hsource
    exact ⟨a, ha⟩
  · intro h
    cases hverify : s.verify with
    | none => exact ⟨none, verifier_eq_none_iff.2 hverify⟩
    | some source =>
      obtain ⟨a, ha⟩ := h source hverify
      exact ⟨some ⟨a, .ofSettings s⟩, verifier_eq_some_iff.2 ⟨source, hverify, ha, rfl⟩⟩

theorem complete_iff : s.Complete disk ↔
    (∃ i, s.identity disk = .ok i) ∧ ∃ v, verifier disk s = .ok v := by
  rw [identity_isOk_iff, verifier_isOk_iff]
  exact ⟨fun h => ⟨⟨h.chain, h.key, h.paired⟩, h.verify⟩,
    fun ⟨⟨hchain, hkey, hpaired⟩, hverify⟩ => ⟨hchain, hkey, hverify, hpaired⟩⟩

theorem coded_verifier (s : Of m) : Coded Material.Fault.toError (verifier disk s) :=
  (coded_anchors s).bind fun _ => coded_ok _

theorem client_eq_ok_iff {c : ClientContext m} : client b disk s = .ok c ↔
    verifier disk s = .ok c.verifier ∧ b.configure = .ok () ∧ s.identity disk = .ok c.identity ∧
      ∀ i ∈ c.identity, b.clientIdentity i = .ok () := by
  simp only [client, bind_eq_ok, mapError_eq_ok]
  constructor
  · rintro ⟨v, hv, _, hconfigured, i | i, hi, h⟩
    · obtain rfl := Except.ok.inj h
      exact ⟨hv, hconfigured, hi, nofun⟩
    · obtain ⟨_, hfits, h⟩ := bind_eq_ok.1 h
      obtain rfl := Except.ok.inj h
      refine ⟨hv, hconfigured, hi, ?_⟩
      rintro _ ⟨⟩
      exact mapError_eq_ok.1 hfits
  · rintro ⟨hv, hconfigured, hi, hfits⟩
    refine ⟨c.verifier, hv, (), hconfigured, c.identity, hi, ?_⟩
    obtain ⟨v, i | i⟩ := c
    · rfl
    · exact bind_eq_ok.2 ⟨(), mapError_eq_ok.2 (hfits i rfl), rfl⟩

theorem client_isOk_iff :
    (∃ c, client b disk s = .ok c) ↔ s.Complete disk ∧ FitsClient b disk s := by
  rw [complete_iff]
  constructor
  · rintro ⟨c, h⟩
    obtain ⟨hv, hconfigured, hi, hfits⟩ := client_eq_ok_iff.1 h
    refine ⟨⟨⟨_, hi⟩, ⟨_, hv⟩⟩, hconfigured, fun i hsome => hfits i ?_⟩
    exact Except.ok.inj (hi.symm.trans hsome)
  · rintro ⟨⟨⟨i, hi⟩, ⟨v, hv⟩⟩, hconfigured, hfits⟩
    refine ⟨⟨v, i⟩, client_eq_ok_iff.2 ⟨hv, hconfigured, hi, ?_⟩⟩
    rintro j rfl
    exact hfits j hi

theorem coded_client (b : Backend) (s : Of m) : Coded Context.Fault.toError (client b disk s) := by
  refine (Context.coded_material (coded_verifier s)).bind fun v => ?_
  refine (Context.coded_reported fun _ => rfl).bind fun _ => ?_
  refine (Context.coded_material (coded_identity s)).bind fun i => ?_
  dsimp only
  split
  · exact (Context.coded_reported fun _ => rfl).bind fun _ => coded_ok _
  · exact coded_ok _

theorem serving_eq_ok_iff {v : Option (Verifier m)} {i : Identity} {c : ServerContext m} :
    serving b v i = .ok c ↔ v = c.verifier ∧ i = c.identity ∧ b.configure = .ok () ∧
      (∀ v ∈ c.verifier, b.clientCheck v.anchors = .ok ()) ∧
      b.serverIdentity c.identity = .ok () := by
  simp only [serving, bind_eq_ok, mapError_eq_ok]
  constructor
  · rintro ⟨_, hconfigured, h⟩
    cases v with
    | none =>
      obtain ⟨_, hfits, h⟩ := bind_eq_ok.1 h
      obtain rfl := Except.ok.inj h
      exact ⟨rfl, rfl, hconfigured, nofun, mapError_eq_ok.1 hfits⟩
    | some v =>
      obtain ⟨_, hcheck, h⟩ := bind_eq_ok.1 h
      obtain ⟨_, hfits, h⟩ := bind_eq_ok.1 h
      obtain rfl := Except.ok.inj h
      refine ⟨rfl, rfl, hconfigured, ?_, mapError_eq_ok.1 hfits⟩
      rintro _ ⟨⟩
      exact mapError_eq_ok.1 hcheck
  · rintro ⟨rfl, rfl, hconfigured, hcheck, hfits⟩
    refine ⟨(), hconfigured, ?_⟩
    obtain ⟨v | v, i⟩ := c
    · exact bind_eq_ok.2 ⟨(), mapError_eq_ok.2 hfits, rfl⟩
    · refine bind_eq_ok.2 ⟨(), mapError_eq_ok.2 (hcheck v rfl), ?_⟩
      exact bind_eq_ok.2 ⟨(), mapError_eq_ok.2 hfits, rfl⟩

theorem coded_serving (b : Backend) (v : Option (Verifier m)) (i : Identity) :
    Coded Context.Fault.toError (serving b v i) := by
  refine (Context.coded_reported fun _ => rfl).bind fun _ => ?_
  cases v with
  | none => exact (Context.coded_reported fun _ => rfl).bind fun _ => coded_ok _
  | some v =>
    refine (Context.coded_reported fun _ => rfl).bind fun _ => ?_
    exact (Context.coded_reported fun _ => rfl).bind fun _ => coded_ok _

theorem server_eq_none_iff : server b disk s = .ok none ↔
    s.checkDh disk = .ok () ∧ s.identity disk = .ok none ∧ verifier disk s = .ok none := by
  simp only [server, bind_eq_ok, mapError_eq_ok]
  constructor
  · rintro ⟨_, hdh, i | i, hi, v, hv, h⟩
    · cases v with
      | none => exact ⟨hdh, hi, hv⟩
      | some v => cases h
    · obtain ⟨_, -, ⟨⟩⟩ := bind_eq_ok.1 h
  · rintro ⟨hdh, hi, hv⟩
    exact ⟨(), hdh, none, hi, none, hv, rfl⟩

theorem server_unset (b : Backend) (disk : Disk) : server b disk ({} : Of m) = .ok none := by
  rw [server_eq_none_iff, identity_eq_none_iff, verifier_eq_none_iff, checkDh_eq_ok_iff]
  exact ⟨fun _ => nofun, ⟨rfl, rfl⟩, rfl⟩

theorem server_eq_some_iff {c : ServerContext m} : server b disk s = .ok (some c) ↔
    s.checkDh disk = .ok () ∧ s.identity disk = .ok (some c.identity) ∧
      verifier disk s = .ok c.verifier ∧ b.configure = .ok () ∧
      (∀ v ∈ c.verifier, b.clientCheck v.anchors = .ok ()) ∧
      b.serverIdentity c.identity = .ok () := by
  simp only [server, bind_eq_ok, mapError_eq_ok]
  constructor
  · rintro ⟨_, hdh, i | i, hi, v, hv, h⟩
    · cases v <;> cases h
    · obtain ⟨served, hserving, h⟩ := bind_eq_ok.1 h
      obtain rfl := Option.some.inj (Except.ok.inj h)
      obtain ⟨rfl, rfl, hreports⟩ := serving_eq_ok_iff.1 hserving
      exact ⟨hdh, hi, hv, hreports⟩
  · rintro ⟨hdh, hi, hv, hreports⟩
    refine ⟨(), hdh, some c.identity, hi, c.verifier, hv, ?_⟩
    exact bind_eq_ok.2 ⟨c, serving_eq_ok_iff.2 ⟨rfl, rfl, hreports⟩, rfl⟩

theorem server_isOk_iff :
    (∃ o, server b disk s = .ok o) ↔ s.ServerComplete disk ∧ FitsServer b disk s := by
  constructor
  · rintro ⟨c | c, h⟩
    · obtain ⟨hdh, hi, hv⟩ := server_eq_none_iff.1 h
      refine ⟨⟨complete_iff.2 ⟨⟨_, hi⟩, _, hv⟩, checkDh_eq_ok_iff.1 hdh, ?_⟩, fun i hsome => ?_⟩
      · simp [verifier_eq_none_iff.1 hv]
      · rw [hi] at hsome
        cases hsome
    · obtain ⟨hdh, hi, hv, hconfigured, hcheck, hfits⟩ := server_eq_some_iff.1 h
      obtain ⟨chain, hchain, -⟩ := identity_eq_some_iff.1 hi
      refine ⟨⟨complete_iff.2 ⟨⟨_, hi⟩, _, hv⟩, checkDh_eq_ok_iff.1 hdh, ?_⟩, fun i hsome => ?_⟩
      · simp [Option.mem_def.1 hchain]
      · rw [hi] at hsome
        cases hsome
        exact ⟨hconfigured, fun v hset => hcheck v (Except.ok.inj (hv.symm.trans hset)), hfits⟩
  · rintro ⟨⟨hcomplete, hdh, hserves⟩, hfits⟩
    obtain ⟨⟨i | i, hi⟩, v, hv⟩ := complete_iff.1 hcomplete
    · have hchain : s.chain = none := (identity_eq_none_iff.1 hi).1
      have hverify : s.verify = none := by simpa [hchain] using hserves
      exact ⟨none, server_eq_none_iff.2
        ⟨checkDh_eq_ok_iff.2 hdh, hi, verifier_eq_none_iff.2 hverify⟩⟩
    · obtain ⟨hconfigured, hcheck, hshown⟩ := hfits i hi
      refine ⟨some ⟨v, i⟩, server_eq_some_iff.2
        ⟨checkDh_eq_ok_iff.2 hdh, hi, hv, hconfigured, ?_, hshown⟩⟩
      rintro w rfl
      exact hcheck w hv

theorem coded_server (b : Backend) (s : Of m) : Coded Context.Fault.toError (server b disk s) := by
  refine (Context.coded_material (coded_checkDh s)).bind fun _ => ?_
  refine (Context.coded_material (coded_identity s)).bind fun i => ?_
  refine (Context.coded_material (coded_verifier s)).bind fun v => ?_
  cases i with
  | none =>
    dsimp only
    split_ifs
    · exact coded_error rfl
    · exact coded_ok _
  | some i => exact (coded_serving b v i).bind fun _ => coded_ok _

variable [Monad m]

/-- The context shows what the settings name, and admits whom they say. -/
structure Serves (b : Backend) (disk : Disk) (s : Of m) (c : ServerContext m) : Prop where
  shows : ∃ chain ∈ s.chain, ∃ key ∈ s.key,
    HoldsCertificates disk chain c.identity.chain ∧ HoldsKey disk key c.identity.key
  admitsAny : s.verify = none → ∀ shown clock now, c.admits b shown clock now = pure true
  checks : ∀ source ∈ s.verify, ∃ a, HoldsAnchors disk source a ∧ ∀ clock now,
    c.admits b none clock now = pure false ∧
      ∀ i, c.admits b (some i) clock now =
        (⟨a, .ofSettings s⟩ : Verifier m).accepts b .client i.chain clock now

/-- The context offers what the settings name, and trusts whom they say. -/
structure Dials (b : Backend) (disk : Disk) (s : Of m) (c : ClientContext m) : Prop where
  offers : c.identity.isSome ↔ s.chain.isSome ∧ s.key.isSome
  holds : ∀ i ∈ c.identity, ∃ chain ∈ s.chain, ∃ key ∈ s.key,
    HoldsCertificates disk chain i.chain ∧ HoldsKey disk key i.key
  trustsAny : s.verify = none → ∀ chain clock now, c.trusts b chain clock now = pure true
  checks : ∀ source ∈ s.verify, ∃ a, HoldsAnchors disk source a ∧ ∀ chain clock now,
    c.trusts b chain clock now =
      (⟨a, .ofSettings s⟩ : Verifier m).accepts b .server chain clock now

theorem serves_of_server {c : ServerContext m} (h : server b disk s = .ok (some c)) :
    s.Serves b disk c := by
  obtain ⟨-, hi, hv, -⟩ := server_eq_some_iff.1 h
  refine ⟨identity_eq_some_iff.1 hi, fun hverify shown clock now => ?_, fun source hsource => ?_⟩
  · simp only [ServerContext.admits, verifier_of_unset hv hverify]
  · obtain ⟨a, hheld, ha⟩ := verifier_of_set hv hsource
    refine ⟨a, hheld, fun clock now => ⟨?_, fun i => ?_⟩⟩
    · simp only [ServerContext.admits, ha]
    · simp only [ServerContext.admits, ha]

theorem dials_of_client {c : ClientContext m} (h : client b disk s = .ok c) :
    s.Dials b disk c := by
  obtain ⟨hv, -, hi, -⟩ := client_eq_ok_iff.1 h
  refine ⟨?_, fun i hsome => identity_eq_some_iff.1 (by rw [hi, hsome]),
    fun hverify chain clock now => ?_, fun source hsource => ?_⟩
  · cases hidentity : c.identity with
    | none =>
      rw [hidentity] at hi
      simp [(identity_eq_none_iff.1 hi).1]
    | some i =>
      rw [hidentity] at hi
      obtain ⟨chain, hchain, key, hkey, -⟩ := identity_eq_some_iff.1 hi
      simp [Option.mem_def.1 hchain, Option.mem_def.1 hkey]
  · simp only [ClientContext.trusts, verifier_of_unset hv hverify]
  · obtain ⟨a, hheld, ha⟩ := verifier_of_set hv hsource
    refine ⟨a, hheld, fun chain clock now => ?_⟩
    simp only [ClientContext.trusts, ha]

/-- A server is plain when nothing is set but DH parameters that are there, and only then. Whatever
is set and is not there, or that the library has something against, is a certificate error of the
server and of the client, and what is there is put to use: the identity is shown, and the peer is
checked exactly when there is something to check it with. A client does not look at DH parameters.
All this holds whatever the library says. -/
theorem no_material_dropped (b : Backend) (disk : Disk) (s : Of m) :
    ((server b disk s = .ok none ↔ s.chain = none ∧ s.key = none ∧ s.verify = none ∧
        ∀ source ∈ s.dh, HoldsDh disk source) ∧
      ((∃ f, server b disk s = .error f ∧ f.toError.code = .certificate) ↔
        ¬ (s.ServerComplete disk ∧ FitsServer b disk s)) ∧
      ∀ c, server b disk s = .ok (some c) → s.Serves b disk c) ∧
    ((∃ f, client b disk s = .error f ∧ f.toError.code = .certificate) ↔
      ¬ (s.Complete disk ∧ FitsClient b disk s)) ∧
    (∀ c, client b disk s = .ok c → s.Dials b disk c) ∧
    ∀ dh, client b disk { s with dh } = client b disk s := by
  refine ⟨⟨?_, (coded_server b s).error_iff server_isOk_iff, fun c => serves_of_server⟩,
    (coded_client b s).error_iff client_isOk_iff, fun c => dials_of_client, fun dh => rfl⟩
  rw [server_eq_none_iff, checkDh_eq_ok_iff, identity_eq_none_iff, verifier_eq_none_iff]
  tauto

end Settings
end Parley.Tls
