import Mathlib
import Parley.Proofs.Config.Fields

/-!
# The shape of a document

A document and its sections are read strictly and by key: what is not known, or stands twice, or is
a document without a version, is refused; the order of entries means nothing; and what is left out
means the same as its default written out.
-/

namespace Parley.Config
open Yaml (Node)

inductive Part where
  | document | server | tls | log

namespace Part

def keys : Part → List String
  | document => ["version", "server", "tls", "log"]
  | server => ["listen"]
  | tls => ["certificate_chain_file", "private_key_file", "verify_file", "dh_params_file",
      "required_hostname"]
  | log => ["error_level", "access_level"]

def key? : Part → Option String
  | document => none
  | server => some "server"
  | tls => some "tls"
  | log => some "log"

def Value : Part → Type
  | document => Config
  | server => Config.Server
  | tls => Config.Tls
  | log => Logging.Levels

def ofNode? : (p : Part) → Node → Option p.Value
  | document => Config.ofNode?
  | server => Server.ofNode?
  | tls => Tls.ofNode?
  | log => levels?

end Part

inductive HasPart : Node → Part → List (Node × Node) → Prop
  | document {tag : Option String} {entries : List (Node × Node)} :
      HasPart (.mapping tag entries) .document entries
  | part {p : Part} {key : String} {tag own : Option String} {k : Node}
      {entries inner : List (Node × Node)} (hp : p.key? = some key) (hk : text? k = some key)
      (hmem : (k, .mapping own inner) ∈ entries) : HasPart (.mapping tag entries) p inner

inductive Edited (change : Part → List (Node × Node) → List (Node × Node) → Prop) :
    Node → Node → Prop
  | document {tag : Option String} {entries entries' : List (Node × Node)}
      (h : change .document entries entries') :
      Edited change (.mapping tag entries) (.mapping tag entries')
  | part {p : Part} {key : String} {tag own : Option String} {k : Node}
      {inner inner' front back : List (Node × Node)} (hp : p.key? = some key)
      (hk : text? k = some key) (h : change p inner inner') :
      Edited change (.mapping tag (front ++ (k, .mapping own inner) :: back))
        (.mapping tag (front ++ (k, .mapping own inner') :: back))

def IsNull (n : Node) : Prop := ∃ s ∈ ["", "~", "null", "Null", "NULL"], n = .scalar none .plain s

/-- The node under the key writes out what the part has when the key is left out. -/
inductive WritesDefault : Part → String → Node → Prop
  | listen {style : Yaml.Style} :
      WritesDefault .server "listen" (.scalar none style "127.0.0.1:9108")
  | errorLevel : WritesDefault .log "error_level" (.scalar none .plain "7")
  | accessLevel : WritesDefault .log "access_level" (.scalar none .plain "0")
  | material {key : String} {n : Node} (hkey : key ∈ Part.tls.keys) (hn : IsNull n) :
      WritesDefault .tls key n
  | tls {n : Node} (hn : IsNull n) : WritesDefault .document "tls" n
  | blank {p : Part} {key : String} (hp : p = .server ∨ p = .log) (hkey : p.key? = some key) :
      WritesDefault .document key (.scalar none .plain "")
  | part {p : Part} {key : String} {tag : Option String} {inner : List (Node × Node)}
      (hp : p = .server ∨ p = .log) (hkey : p.key? = some key) (hstrict : Strict p.keys inner)
      (hinner : ∀ e ∈ inner, ∀ f, text? e.1 = some f → WritesDefault p f e.2) :
      WritesDefault .document key (.mapping tag inner)

/-- The second entries are the first ones and defaults of what these leave out, in any order. -/
def Completes (p : Part) (entries entries' : List (Node × Node)) : Prop :=
  ∃ added, entries'.Perm (entries ++ added) ∧ (added.map (text? ·.1)).Nodup ∧
    ∀ d ∈ added, ∃ key, text? d.1 = some key ∧ WritesDefault p key d.2 ∧
      ∀ e ∈ entries, text? e.1 ≠ some key

def Reordered : Node → Node → Prop :=
  Relation.ReflTransGen (Edited fun _ entries entries' => entries.Perm entries')

def Completed : Node → Node → Prop := Relation.ReflTransGen (Edited Completes)

/-- What stands under a key of a part in two documents makes no difference: it is the same, it is a
default that one of them leaves out, or it is read as the same section. -/
inductive SameField : Part → String → Option Node → Option Node → Prop
  | same {p : Part} {key : String} {o : Option Node} : SameField p key o o
  | default {p : Part} {key : String} {d : Node} (h : WritesDefault p key d) :
      SameField p key none (some d)
  | part {q : Part} {key : String} {tag : Option String} {inner inner' : List (Node × Node)}
      (hq : q.key? = some key)
      (h : q.ofNode? (.mapping tag inner) = q.ofNode? (.mapping tag inner')) :
      SameField .document key (some (.mapping tag inner)) (some (.mapping tag inner'))

section
variable {α : Type} {p : Part} {key : String} {fields fields' : List (String × Node)}
  {read : Node → Option α} {default : α} {n n' : Node}

theorem SameField.field?_eq (h : SameField p key (fields.lookup key) (fields'.lookup key))
    (hdefault : ∀ d, WritesDefault p key d → read d = some default)
    (hpart : ∀ (q : Part) (tag : Option String) (inner inner' : List (Node × Node)),
      p = .document → q.key? = some key →
        q.ofNode? (.mapping tag inner) = q.ofNode? (.mapping tag inner') →
        read (.mapping tag inner) = read (.mapping tag inner')) :
    field? fields key read default = field? fields' key read default := by
  unfold field?
  generalize fields.lookup key = o, fields'.lookup key = o' at h
  cases h with
  | same => rfl
  | default hd => exact (hdefault _ hd).symm
  | part hq hsame => exact hpart _ _ _ _ rfl hq hsame

theorem server_congr (h : fields? Part.server.keys n = some fields)
    (h' : fields? Part.server.keys n' = some fields')
    (hsame : ∀ key, SameField .server key (fields.lookup key) (fields'.lookup key)) :
    Server.ofNode? n = Server.ofNode? n' := by
  have hlisten : field? fields "listen" text? ({} : Server).listen =
      field? fields' "listen" text? ({} : Server).listen := by
    refine (hsame "listen").field?_eq (fun d hd => ?_) nofun
    cases hd with
    | listen => rfl
  rw [Part.keys] at h h'
  simp only [Server.ofNode?, h, h', hlisten, Option.bind_eq_bind, Option.bind_some]

theorem optional?_null {read : Node → Option α} (hn : IsNull n) :
    optional? read n = some none := by
  obtain ⟨s, hs, rfl⟩ := hn
  have habsent : isAbsent? (.scalar none .plain s) = some true := by
    simp only [List.mem_cons, List.not_mem_nil, or_false] at hs
    rcases hs with rfl | rfl | rfl | rfl | rfl <;> rfl
  simp only [optional?, habsent, Option.bind_eq_bind, Option.bind_some]
  rfl

theorem tls_congr (h : fields? Part.tls.keys n = some fields)
    (h' : fields? Part.tls.keys n' = some fields')
    (hsame : ∀ key, SameField .tls key (fields.lookup key) (fields'.lookup key)) :
    Tls.ofNode? n = Tls.ofNode? n' := by
  have htext (key : String) : field? fields key (optional? text?) none =
      field? fields' key (optional? text?) none := by
    refine (hsame key).field?_eq (fun d hd => ?_) nofun
    cases hd with
    | material _ hn => exact optional?_null hn
  rw [Part.keys] at h h'
  simp only [Tls.ofNode?, h, h', htext, Option.bind_eq_bind, Option.bind_some]

theorem log_congr (h : fields? Part.log.keys n = some fields)
    (h' : fields? Part.log.keys n' = some fields')
    (hsame : ∀ key, SameField .log key (fields.lookup key) (fields'.lookup key)) :
    levels? n = levels? n' := by
  have herror : field? fields "error_level" word? ({} : Logging.Levels).error =
      field? fields' "error_level" word? ({} : Logging.Levels).error := by
    refine (hsame "error_level").field?_eq (fun d hd => ?_) nofun
    generalize hkey : "error_level" = key at hd
    cases hd with
    | errorLevel => decide
    | accessLevel => exact absurd hkey (by decide)
  have haccess : field? fields "access_level" word? ({} : Logging.Levels).access =
      field? fields' "access_level" word? ({} : Logging.Levels).access := by
    refine (hsame "access_level").field?_eq (fun d hd => ?_) nofun
    generalize hkey : "access_level" = key at hd
    cases hd with
    | errorLevel => exact absurd hkey (by decide)
    | accessLevel => decide
  rw [Part.keys] at h h'
  simp only [levels?, h, h', herror, haccess, Option.bind_eq_bind, Option.bind_some]

end

section
variable {p q : Part} {key : String} {tag : Option String} {entries entries' : List (Node × Node)}

theorem Part.key?_injective (hp : p.key? = some key) (hq : q.key? = some key) : p = q := by
  have hsame : p.key? = q.key? := hp.trans hq.symm
  cases p <;> cases q <;> first | rfl | simp [Part.key?] at hp hsame

theorem Part.key?_mem (hp : p.key? = some key) : key ∈ Part.document.keys := by
  cases p <;> cases hp <;> decide

theorem Part.key?_ne_version (hp : p.key? = some key) : key ≠ "version" := by
  cases p <;> cases hp <;> decide

theorem WritesDefault.mem_keys {d : Node} (h : WritesDefault p key d) : key ∈ p.keys := by
  cases h with
  | listen => decide
  | errorLevel => decide
  | accessLevel => decide
  | material hkey => exact hkey
  | tls => decide
  | blank _ hkey => exact Part.key?_mem hkey
  | part _ hkey => exact Part.key?_mem hkey

theorem Completes.strict_iff (h : Completes p entries entries') :
    Strict p.keys entries ↔ Strict p.keys entries' := by
  obtain ⟨added, hperm, hdistinct, hadded⟩ := h
  constructor
  · intro hs
    refine Strict.perm hperm.symm ⟨fun e he => ?_, ?_⟩
    · rcases List.mem_append.1 he with he | he
      · exact hs.known e he
      · obtain ⟨key, hkey, hd, -⟩ := hadded e he
        exact ⟨key, hd.mem_keys, hkey⟩
    · rw [List.map_append, List.nodup_append]
      refine ⟨hs.distinct, hdistinct, ?_⟩
      rintro _ hleft _ hright rfl
      obtain ⟨e, he, heq⟩ := List.mem_map.1 hleft
      obtain ⟨d, hd, hdeq⟩ := List.mem_map.1 hright
      obtain ⟨key, hkey, -, hno⟩ := hadded d hd
      exact hno e he (heq.trans (hdeq.symm.trans hkey))
  · intro hs
    have hall := Strict.perm hperm hs
    refine ⟨fun e he => hall.known e (List.mem_append_left _ he), ?_⟩
    have hdistinct := hall.distinct
    rw [List.map_append] at hdistinct
    exact hdistinct.of_append_left

theorem Completes.sameField (h : Completes p entries entries') (hs : Strict p.keys entries)
    (key : String) :
    SameField p key ((named entries).lookup key) ((named entries').lookup key) := by
  have hs' : Strict p.keys entries' := h.strict_iff.1 hs
  obtain ⟨added, hperm, -, hadded⟩ := h
  cases hlookup : (named entries').lookup key with
  | none =>
    have hnone : (named entries).lookup key = none := by
      rw [hs.lookup_eq_none_iff]
      intro e he
      exact hs'.lookup_eq_none_iff.1 hlookup e (hperm.mem_iff.2 (List.mem_append_left _ he))
    rw [hnone]
    exact .same
  | some v =>
    obtain ⟨k, hmem, hk⟩ := hs'.lookup_eq_some_iff.1 hlookup
    rcases List.mem_append.1 (hperm.mem_iff.1 hmem) with he | hd
    · rw [hs.lookup_eq_some_iff.2 ⟨k, he, hk⟩]
      exact .same
    · obtain ⟨key', hkey, hdefault, hno⟩ := hadded _ hd
      obtain rfl : key' = key := Option.some.inj (hkey.symm.trans hk)
      rw [hs.lookup_eq_none_iff.2 hno]
      exact .default hdefault

theorem WritesDefault.ofNode?_eq {d : Node} (h : WritesDefault .document key d)
    (hp : p = .server ∨ p = .log) (hkey : p.key? = some key) :
    p.ofNode? d = p.ofNode? .absent := by
  cases h with
  | tls => rcases hp with rfl | rfl <;> simp [Part.key?] at hkey
  | blank => rfl
  | @part q _ tag inner _ hq hstrict hinner =>
    obtain rfl := Part.key?_injective hkey hq
    have hcompletes : Completes p [] inner := by
      refine ⟨inner, List.Perm.refl _, hstrict.distinct, fun e he => ?_⟩
      obtain ⟨f, -, hf⟩ := hstrict.known e he
      exact ⟨f, hf, hinner e he f hf, fun _ => nofun⟩
    have hsame := hcompletes.sameField (hcompletes.strict_iff.2 hstrict)
    rcases hp with rfl | rfl
    · exact (server_congr rfl (fields?_of_strict hstrict) hsame).symm
    · exact (log_congr rfl (fields?_of_strict hstrict) hsame).symm

theorem WritesDefault.ne_version {d : Node} (h : WritesDefault .document key d) :
    key ≠ "version" := by
  cases h with
  | tls => decide
  | blank _ hkey => exact Part.key?_ne_version hkey
  | part _ hkey => exact Part.key?_ne_version hkey

theorem WritesDefault.isNull {d : Node} (h : WritesDefault .document key d) (hkey : key = "tls") :
    IsNull d := by
  cases h with
  | tls hn => exact hn
  | blank hp hq => rcases hp with rfl | rfl <;> simp [Part.key?, hkey] at hq
  | part hp hq => rcases hp with rfl | rfl <;> simp [Part.key?, hkey] at hq

theorem section_congr {default : p.Value} (hp : p = .server ∨ p = .log)
    (hkey : p.key? = some key) (hdefault : p.ofNode? .absent = some default)
    (hsame : SameField .document key (fields.lookup key) (fields'.lookup key)) :
    field? fields key p.ofNode? default = field? fields' key p.ofNode? default := by
  refine hsame.field?_eq (fun d hd => ?_) fun q tag inner inner' _ hq hread => ?_
  · rw [hd.ofNode?_eq hp hkey, hdefault]
  · obtain rfl : q = p := Part.key?_injective hq hkey
    exact hread

theorem document_congr {n n' : Node} {fields fields' : List (String × Node)}
    (h : fields? Part.document.keys n = some fields)
    (h' : fields? Part.document.keys n' = some fields')
    (hsame : ∀ key, SameField .document key (fields.lookup key) (fields'.lookup key)) :
    Config.ofNode? n = Config.ofNode? n' := by
  have hversion : fields.lookup "version" = fields'.lookup "version" := by
    generalize hkey : "version" = key
    have hv := hsame key
    generalize fields.lookup key = o, fields'.lookup key = o' at hv
    cases hv with
    | same => rfl
    | default hd => exact absurd hkey.symm hd.ne_version
    | part hq => exact absurd hkey.symm (Part.key?_ne_version hq)
  have hserver : field? fields "server" Server.ofNode? {} =
      field? fields' "server" Server.ofNode? {} :=
    section_congr (p := .server) (.inl rfl) rfl rfl (hsame "server")
  have htls : field? fields "tls" (optional? Tls.ofNode?) none =
      field? fields' "tls" (optional? Tls.ofNode?) none := by
    refine (hsame "tls").field?_eq (fun d hd => optional?_null (hd.isNull rfl))
      fun q tag inner inner' _ hq hread => ?_
    obtain rfl : q = .tls := Part.key?_injective hq rfl
    have hread : Tls.ofNode? (.mapping tag inner) = Tls.ofNode? (.mapping tag inner') := hread
    simp only [optional?, isAbsent?, hread]
  have hlog : field? fields "log" levels? {} = field? fields' "log" levels? {} :=
    section_congr (p := .log) (.inr rfl) rfl rfl (hsame "log")
  rw [Part.keys] at h h'
  simp only [Config.ofNode?, h, h', hversion, hserver, htls, hlog, Option.bind_eq_bind,
    Option.bind_some]

theorem Part.ofNode?_eq_bind (p : Part) : ∃ build : List (String × Node) → Option p.Value,
    ∀ n, p.ofNode? n = (fields? p.keys n).bind build := by
  cases p <;> exact ⟨_, fun _ => rfl⟩

theorem Part.ofNode?_eq_none {n : Node} (h : fields? p.keys n = none) : p.ofNode? n = none := by
  obtain ⟨build, hbuild⟩ := p.ofNode?_eq_bind
  rw [hbuild, h, Option.bind_none]

theorem Part.strict_of_ofNode? {x : p.Value} (h : p.ofNode? (.mapping tag entries) = some x) :
    Strict p.keys entries := by
  by_contra hnot
  rw [Part.ofNode?_eq_none (fields?_of_not_strict hnot)] at h
  cases h

theorem Part.ofNode?_congr (hstrict : Strict p.keys entries ↔ Strict p.keys entries')
    (hsame : Strict p.keys entries → ∀ key,
      SameField p key ((named entries).lookup key) ((named entries').lookup key)) :
    p.ofNode? (.mapping tag entries) = p.ofNode? (.mapping tag entries') := by
  by_cases hs : Strict p.keys entries
  · have h : fields? p.keys (.mapping tag entries) = some (named entries) := fields?_of_strict hs
    have h' : fields? p.keys (.mapping tag entries') = some (named entries') :=
      fields?_of_strict (hstrict.1 hs)
    cases p with
    | document => exact document_congr h h' (hsame hs)
    | server => exact server_congr h h' (hsame hs)
    | tls => exact tls_congr h h' (hsame hs)
    | log => exact log_congr h h' (hsame hs)
  · rw [Part.ofNode?_eq_none (fields?_of_not_strict hs),
      Part.ofNode?_eq_none (fields?_of_not_strict (mt hstrict.2 hs))]

theorem Completes.ofNode?_eq (h : Completes p entries entries') :
    p.ofNode? (.mapping tag entries) = p.ofNode? (.mapping tag entries') :=
  Part.ofNode?_congr h.strict_iff h.sameField

theorem Edited.ofNode?_eq {change : Part → List (Node × Node) → List (Node × Node) → Prop}
    (hchange : ∀ p entries entries', change p entries entries' → Completes p entries entries')
    {n n' : Node} (h : Edited change n n') : Config.ofNode? n = Config.ofNode? n' := by
  cases h with
  | document h => exact (hchange _ _ _ h).ofNode?_eq (p := .document)
  | @part q key _ own k inner inner' front back hq hk h =>
    refine Part.ofNode?_congr (p := .document) ⟨Strict.put, Strict.put⟩ fun hs other => ?_
    by_cases heq : other = key
    · subst heq
      have hat (v : Node) : (k, v) ∈ front ++ (k, v) :: back :=
        List.mem_append_right _ List.mem_cons_self
      rw [hs.lookup_eq_some_iff.2 ⟨k, hat _, hk⟩, hs.put.lookup_eq_some_iff.2 ⟨k, hat _, hk⟩]
      exact .part hq (hchange _ _ _ h).ofNode?_eq
    · rw [lookup_put_of_ne hk heq]
      exact .same

theorem completes_of_perm (h : entries.Perm entries') : Completes p entries entries' :=
  ⟨[], by rw [List.append_nil]; exact h.symm, List.nodup_nil, fun _ => nofun⟩

theorem Reordered.ofNode?_eq {n n' : Node} (h : Reordered n n') :
    Config.ofNode? n' = Config.ofNode? n := by
  induction h with
  | refl => rfl
  | tail _ hedit ih => exact (hedit.ofNode?_eq fun _ _ _ => completes_of_perm).symm.trans ih

theorem Completed.ofNode?_eq {n n' : Node} (h : Completed n n') :
    Config.ofNode? n' = Config.ofNode? n := by
  induction h with
  | refl => rfl
  | tail _ hedit ih => exact (hedit.ofNode?_eq fun _ _ _ => id).symm.trans ih

theorem ofNode?_eq_some_iff {n : Node} {c : Config} : Config.ofNode? n = some c ↔
    ∃ fields, fields? Part.document.keys n = some fields ∧
      (fields.lookup "version").bind word? = some c.version ∧
      field? fields "server" Server.ofNode? {} = some c.server ∧
      field? fields "tls" (optional? Tls.ofNode?) none = some c.tls ∧
      field? fields "log" levels? {} = some c.log := by
  simp only [Config.ofNode?, Part.keys, Option.bind_eq_bind, Option.bind_eq_some_iff]
  constructor
  · rintro ⟨fields, hfields, version, hversion, server, hserver, tls, htls, log, hlog, ⟨⟩⟩
    exact ⟨fields, hfields, hversion, hserver, htls, hlog⟩
  · rintro ⟨fields, hfields, hversion, hserver, htls, hlog⟩
    exact ⟨fields, hfields, _, hversion, _, hserver, _, htls, _, hlog, rfl⟩

theorem HasPart.strict {n : Node} {c : Config} (hpart : HasPart n p entries)
    (h : Config.ofNode? n = some c) : Strict p.keys entries := by
  cases hpart with
  | document => exact Part.strict_of_ofNode? (p := .document) h
  | @part p key tag own k document inner hp hk hmem =>
    have hs : Strict Part.document.keys document := Part.strict_of_ofNode? (p := .document) h
    obtain ⟨fields, hfields, -, hserver, htls, hlog⟩ := ofNode?_eq_some_iff.1 h
    obtain rfl := Option.some.inj ((fields?_of_strict hs).symm.trans hfields)
    have hat := hs.lookup_eq_some_iff.2 ⟨k, hmem, hk⟩
    cases p with
    | document => cases hp
    | server =>
      obtain rfl := Option.some.inj hp
      rw [field?, hat] at hserver
      exact Part.strict_of_ofNode? (p := .server) hserver
    | tls =>
      obtain rfl := Option.some.inj hp
      rw [field?, hat] at htls
      obtain ⟨_, hread, -⟩ := Option.bind_eq_some_iff.1 htls
      exact Part.strict_of_ofNode? (p := .tls) hread
    | log =>
      obtain rfl := Option.some.inj hp
      rw [field?, hat] at hlog
      exact Part.strict_of_ofNode? (p := .log) hlog

theorem hasPart_version {n : Node} {c : Config} (h : Config.ofNode? n = some c) :
    ∃ entries, HasPart n .document entries ∧ ∃ e ∈ entries, text? e.1 = some "version" := by
  obtain ⟨fields, hfields, hversion, -⟩ := ofNode?_eq_some_iff.1 h
  obtain ⟨v, hlookup, -⟩ := Option.bind_eq_some_iff.1 hversion
  rcases fields?_cases hfields with ⟨tag, entries, rfl, hs, rfl⟩ | ⟨-, rfl⟩
  · obtain ⟨k, hmem, hk⟩ := hs.lookup_eq_some_iff.1 hlookup
    exact ⟨entries, .document, (k, v), hmem, hk⟩
  · cases hlookup

theorem ofNode_of_none {n : Node} (h : Config.ofNode? n = none) : ofNode n = .error .yaml := by
  rw [ofNode, h]

/-- A document is refused when a mapping of it has a key that is not known there or the same key
twice, and when it has no version. The order of the entries of its mappings makes no difference to
what it is read as, be that a configuration or an error, and neither does it whether a default is
written out. -/
theorem ofNode_strict_and_unordered (n : Node) :
    (∀ p entries, HasPart n p entries →
      (∃ e ∈ entries, ∀ key ∈ p.keys, text? e.1 ≠ some key) ∨
        ¬ (entries.map (text? ·.1)).Nodup → ofNode n = .error .yaml) ∧
    ((∀ entries, HasPart n .document entries → ∀ e ∈ entries, text? e.1 ≠ some "version") →
      ofNode n = .error .yaml) ∧
    (∀ n', Reordered n n' → ofNode n' = ofNode n) ∧
    ∀ n', Completed n n' → ofNode n' = ofNode n := by
  refine ⟨fun p entries hpart hfault => ofNode_of_none ?_, fun hno => ofNode_of_none ?_,
    fun n' h => ?_, fun n' h => ?_⟩
  · rw [Option.eq_none_iff_forall_ne_some]
    intro c hc
    have hs := hpart.strict hc
    rcases hfault with ⟨e, he, hunknown⟩ | htwice
    · obtain ⟨key, hkey, htext⟩ := hs.known e he
      exact hunknown key hkey htext
    · exact htwice hs.distinct
  · rw [Option.eq_none_iff_forall_ne_some]
    intro c hc
    obtain ⟨entries, hpart, e, he, hversion⟩ := hasPart_version hc
    exact hno entries hpart e he hversion
  · rw [ofNode, h.ofNode?_eq, ofNode]
  · rw [ofNode, h.ofNode?_eq, ofNode]

theorem ofNode_strict_and_unordered_short :
    let entry (key value : String) : Node × Node :=
      (.scalar none .plain key, .scalar none .plain value)
    let part (key : String) (inner : List (Node × Node)) : Node × Node :=
      (.scalar none .plain key, .mapping none inner)
    let typo := Node.mapping none [entry "version" "1", part "tls" [entry "verfy_file" "ca.pem"]]
    let short := Node.mapping none [entry "version" "1", part "log" [entry "access_level" "4"]]
    let turned := Node.mapping none [part "log" [entry "access_level" "4"], entry "version" "1"]
    let long := Node.mapping none [entry "version" "1",
      part "log" [entry "error_level" "7", entry "access_level" "4"]]
    (HasPart typo .tls [entry "verfy_file" "ca.pem"] ∧ ofNode typo = .error .yaml) ∧
    ofNode (.mapping none []) = .error .yaml ∧
    (Reordered short turned ∧ ofNode turned = ofNode short) ∧
    (Completed short long ∧ ofNode long = ofNode short) ∧
    ofNode short = .ok { version := 1, log := ⟨7, 4⟩ } := by
  intro entry part typo short turned long
  have htypo : HasPart typo .tls [entry "verfy_file" "ca.pem"] :=
    .part rfl rfl (List.mem_cons_of_mem _ List.mem_cons_self)
  have hunknown : ∃ e ∈ [entry "verfy_file" "ca.pem"], ∀ key ∈ Part.tls.keys,
      text? e.1 ≠ some key := ⟨_, List.mem_cons_self, by decide⟩
  have hturned : Reordered short turned := .single (.document (List.Perm.swap ..))
  have hlevel : Completes .log [entry "access_level" "4"]
      [entry "error_level" "7", entry "access_level" "4"] := by
    refine ⟨[entry "error_level" "7"], List.Perm.swap .., List.nodup_singleton _, fun d hd => ?_⟩
    obtain rfl := List.mem_singleton.1 hd
    refine ⟨"error_level", rfl, .errorLevel, fun e he => ?_⟩
    obtain rfl := List.mem_singleton.1 he
    decide
  have hedited : Edited Completes (.mapping none ([entry "version" "1"] ++
      (.scalar none .plain "log", .mapping none [entry "access_level" "4"]) :: [])) long :=
    .part (p := .log) rfl rfl hlevel
  have hlong : Completed short long := .single hedited
  refine ⟨⟨htypo, (ofNode_strict_and_unordered typo).1 _ _ htypo (.inl hunknown)⟩,
    (ofNode_strict_and_unordered (.mapping none [])).2.1 ?_,
    ⟨hturned, (ofNode_strict_and_unordered short).2.2.1 _ hturned⟩,
    ⟨hlong, (ofNode_strict_and_unordered short).2.2.2 _ hlong⟩, by rfl⟩
  intro entries hpart e he
  cases hpart with
  | document => cases he
  | part hp => cases hp

end
end Parley.Config
