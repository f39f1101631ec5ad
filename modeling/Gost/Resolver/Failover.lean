import Gost.Resolver.Resolve

/-!
# Failover between nameservers

Whatever was resolved before, the cache has for a question the first answer that is not an error, in
the order of the nameservers: `Known`. So `Resolve` finds an address if that answer has one, and not
if only the answer of a later nameserver has (`resolve_ne_nil_iff`).

That holds without restriction if no nameserver is `Async`. With one that is, an empty answer in the
cache can also hide the other family, so it is shown for hosts for which no first answer is empty.
-/

def Resolver.Family.other : Resolver.Family → Resolver.Family
  | .ipv4 => .ipv6
  | .ipv6 => .ipv4

namespace Resolver.LocalResolver

open List Option TransitionSystem

variable {IP : Type*} (r : LocalResolver IP) (name : Bytes)

/-! ## First answers -/

/-- The question for a name. -/
abbrev query (family : Family) : Question := ⟨name, classINET, family.qtype⟩

/-- The addresses of the first answer that is not an error. -/
def addresses (family : Family) : Option (List IP) :=
  (r.servers.findSome? (·.answer (query name family))).map extractIPs

/-- The families that a caller asks for. -/
def families : Option Family → List Family
  | some family => [family]
  | none => [.ipv4, .ipv6]

/-- The nameservers up to here know nothing about the question. -/
def Silent (servers : List (NameServer IP)) (family : Family) : Prop :=
  ∀ server ∈ servers, server.answer (query name family) = none

abbrev Fresh (s : State IP) (family : Family) : Prop :=
  s.cache.Fresh s.now (r.texts.key (query name family))

/-- The cache has first answers for the name. -/
def Cached (s : State IP) : Prop :=
  ∀ family item, s.cache.lookup (r.texts.key (query name family)) = some item →
    r.addresses name family = some (extractIPs item.msg)

/-- The cache has first answers for the name, and will have: a job in the background asks a
nameserver behind silent ones. -/
structure Known (s : State IP) : Prop where
  cached : r.Cached name s
  jobs : ∀ job ∈ s.jobs, fqdn job.host = name → ∃ pre post,
    r.servers = pre ++ job.server :: post ∧
      ∀ family ∈ families job.callerPref, Silent name pre family

/-- Asked up to here, the question has no address. -/
def Settled (pre : List (NameServer IP)) (s : State IP) (family : Family) : Prop :=
  (r.Fresh name s family ∧ r.addresses name family = some []) ∨ Silent name pre family

/-- From `s` to `s'` nothing expires, and no job is added. -/
structure Grows (s s' : State IP) : Prop where
  now : s'.now = s.now
  jobs : s'.jobs = s.jobs
  fresh : ∀ family, r.Fresh name s family → r.Fresh name s' family

variable {r name}

theorem Grows.refl (s : State IP) : r.Grows name s s := ⟨rfl, rfl, fun _ h => h⟩

variable {s s' : State IP} {pre post : List (NameServer IP)} {family : Family}
  {server : NameServer IP} {callerPref : Option Family} {host : Bytes}

theorem Grows.trans {s'' : State IP} (h : r.Grows name s s') (h' : r.Grows name s' s'') :
    r.Grows name s s'' :=
  ⟨h'.now.trans h.now, h'.jobs.trans h.jobs, fun family hf => h'.fresh family (h.fresh family hf)⟩

theorem Settled.grows (h : r.Settled name pre s family) (hgrows : r.Grows name s s') :
    r.Settled name pre s' family :=
  h.imp_left fun h => ⟨hgrows.fresh family h.1, h.2⟩

theorem key_query_inj {name' : Bytes} {family' : Family}
    (h : r.texts.key (query name family) = r.texts.key (query name' family')) :
    name = name' ∧ family = family' := by
  have htype : ∀ f : Family, f.qtype = typeA ∨ f.qtype = typeAAAA := by
    intro f
    cases f
    · exact .inl rfl
    · exact .inr rfl
  obtain ⟨hname, hqtype⟩ := r.texts.key_inj (htype family) (htype family') h
  refine ⟨hname, ?_⟩
  cases family <;> cases family' <;> first | rfl | exact absurd hqtype (by decide)

theorem addresses_of_silent {mr : Msg IP} (hsplit : r.servers = pre ++ server :: post)
    (hpre : Silent name pre family) (hanswer : server.answer (query name family) = some mr) :
    r.addresses name family = some (extractIPs mr) := by
  have hnone : pre.findSome? (·.answer (query name family)) = none :=
    findSome?_eq_none_iff.mpr hpre
  rw [addresses, hsplit, findSome?_append, hnone, none_or, findSome?_cons_of_isSome]
  · rw [hanswer]
    rfl
  · rw [hanswer]
    rfl

theorem silent_concat (hpre : Silent name pre family)
    (hanswer : server.answer (query name family) = none) : Silent name (pre ++ [server]) family :=
  forall_mem_append.mpr ⟨hpre, forall_mem_singleton.mpr hanswer⟩

/-! ## One question -/

section

variable {s : State IP} {server : NameServer IP} {pre post : List (NameServer IP)} {family : Family}
  {q : Question} {ips : List IP} {ttl : ℤ}

theorem resolveIPs_of_fresh {item : Item IP} (hitem : s.cache.lookup (r.texts.key q) = some item)
    (hfresh : 0 < item.ttl - (s.now - item.ts)) :
    r.resolveIPs s server q = (s, some (extractIPs item.msg)) := by
  simp only [resolveIPs, Cache.load, hitem, map_some, if_pos hfresh, extractIPs_mapTTL]

theorem resolveIPs_of_not_fresh (h : ¬ s.cache.Fresh s.now (r.texts.key q)) :
    r.resolveIPs s server q = r.ask s server q := by
  unfold resolveIPs Cache.load
  cases hitem : s.cache.lookup (r.texts.key q) with
  | none => rfl
  | some item => exact if_neg fun hfresh => h ⟨item, hitem, hfresh⟩

/-- What a question comes to: the first answer, which is in the cache then, or silence. -/
def Answered (r : LocalResolver IP) (name : Bytes) (pre : List (NameServer IP))
    (server : NameServer IP) (family : Family) (result : State IP × Option (List IP)) : Prop :=
  (∃ ips, result.2 = some ips ∧ r.addresses name family = some ips ∧
    r.Fresh name result.1 family) ∨
  (result.2 = none ∧ Silent name (pre ++ [server]) family)

theorem resolveIPs_spec (hsplit : r.servers = pre ++ server :: post) (httl : 0 ≤ server.ttl)
    (hcached : r.Cached name s) (hpre : r.Fresh name s family ∨ Silent name pre family) :
    r.Cached name (r.resolveIPs s server (query name family)).1 ∧
      r.Grows name s (r.resolveIPs s server (query name family)).1 ∧
      r.Answered name pre server family (r.resolveIPs s server (query name family)) := by
  by_cases hfresh : r.Fresh name s family
  · obtain ⟨item, hitem, hpos⟩ := id hfresh
    rw [resolveIPs_of_fresh hitem hpos]
    exact ⟨hcached, .refl s, .inl ⟨_, rfl, hcached family item hitem, hfresh⟩⟩
  · have hsilent := hpre.resolve_left hfresh
    rw [resolveIPs_of_not_fresh hfresh, ask]
    cases hanswer : server.answer (query name family) with
    | none => exact ⟨hcached, .refl s, .inr ⟨rfl, silent_concat hsilent hanswer⟩⟩
    | some mr =>
      have haddr := addresses_of_silent hsplit hsilent hanswer
      obtain ⟨item, hitem, hips, hpos⟩ := s.cache.lookup_store_self s.now mr
        (r.texts.key_ne_nil (query name family)) httl
      refine ⟨fun family' item' hitem' => ?_, ⟨rfl, rfl, fun family' hf => ?_⟩,
        .inl ⟨_, rfl, haddr, item, hitem, hpos⟩⟩
      · by_cases hfam : family' = family
        · subst hfam
          rw [hitem, some.injEq] at hitem'
          rw [haddr, ← hitem', hips]
        · rw [Cache.lookup_store_of_ne fun h => hfam (key_query_inj h).2] at hitem'
          exact hcached family' item' hitem'
      · by_cases hfam : family' = family
        · subst hfam
          exact ⟨item, hitem, hpos⟩
        · obtain ⟨item', hitem', hpos'⟩ := hf
          refine ⟨item', ?_, hpos'⟩
          rwa [Cache.lookup_store_of_ne fun h => hfam (key_query_inj h).2]

/-! ## One nameserver -/

/-- What asking a nameserver comes to: an address of a first answer, or none so far. -/
def Outcome (r : LocalResolver IP) (name : Bytes) (pre : List (NameServer IP))
    (server : NameServer IP) (asked : List Family) (result : State IP × Option (List IP)) : Prop :=
  (∃ family ∈ asked, ∃ ips, ips ≠ [] ∧ result.2 = some ips ∧ r.addresses name family = some ips) ∨
  (result.2.getD [] = [] ∧ ∀ family ∈ asked, r.Settled name (pre ++ [server]) result.1 family)

theorem Answered.outcome {result : State IP × Option (List IP)}
    (h : r.Answered name pre server family result) :
    r.Outcome name pre server [family] result := by
  rcases h with ⟨ips, hips, haddr, hfresh⟩ | ⟨hnone, hsilent⟩
  · by_cases hnil : ips = []
    · subst hnil
      refine .inr ⟨by rw [hips]; rfl, forall_mem_singleton.mpr ?_⟩
      exact .inl ⟨hfresh, haddr⟩
    · exact .inl ⟨family, mem_singleton_self family, ips, hnil, hips, haddr⟩
  · exact .inr ⟨by rw [hnone]; rfl, forall_mem_singleton.mpr (.inr hsilent)⟩

/-- The family that a nameserver is asked for first, if the caller leaves it open. -/
def firstFamily (server : NameServer IP) : Family :=
  if server.prefer = some .ipv6 then .ipv6 else .ipv4

theorem mem_families_none (family family' : Family) :
    family' ∈ families none ↔ family' ∈ [family, family.other] := by
  cases family <;> cases family' <;> decide

variable {host : Bytes}

theorem resolveVia_some (honly : server.only = none) (f : Family) :
    r.resolveVia s server host (some f) = r.resolveFamily s server host f := by
  cases f <;> simp [resolveVia, resolvePreference, honly, shouldReturn]

theorem resolveVia_none (honly : server.only = none) :
    r.resolveVia s server host none =
      if ((r.resolveFamily s server host (firstFamily server)).2.getD []).isEmpty then
        r.resolveFamily (r.resolveFamily s server host (firstFamily server)).1 server host
          (firstFamily server).other
      else r.resolveFamily s server host (firstFamily server) := by
  unfold resolveVia resolvePreference firstFamily
  by_cases hprefer : server.prefer = some .ipv6
  · simp [hprefer, shouldReturn, honly, Family.other]
  · simp [hprefer, shouldReturn, honly, Family.other]

theorem lookupCache_some (honly : server.only = none) (f : Family) :
    r.lookupCache s server host (some f) = r.lookup s host f := by
  cases f <;> simp [lookupCache, resolvePreference, honly, shouldReturn]

theorem lookupCache_none (honly : server.only = none) :
    r.lookupCache s server host none =
      if (((r.lookup s host (firstFamily server)).map (·.1)).getD []).isEmpty then
        r.lookup s host (firstFamily server).other
      else r.lookup s host (firstFamily server) := by
  unfold lookupCache resolvePreference firstFamily
  by_cases hprefer : server.prefer = some .ipv6
  · simp [hprefer, shouldReturn, honly, Family.other]
  · simp [hprefer, shouldReturn, honly, Family.other]

theorem resolveFamily_spec (hsplit : r.servers = pre ++ server :: post) (httl : 0 ≤ server.ttl)
    (hcached : r.Cached (fqdn host) s)
    (hpre : r.Fresh (fqdn host) s family ∨ Silent (fqdn host) pre family) :
    r.Cached (fqdn host) (r.resolveFamily s server host family).1 ∧
      r.Grows (fqdn host) s (r.resolveFamily s server host family).1 ∧
      r.Answered (fqdn host) pre server family (r.resolveFamily s server host family) :=
  resolveIPs_spec hsplit httl hcached hpre

/-- `resolve`, behind nameservers that have settled nothing else. -/
theorem resolveVia_spec (hsplit : r.servers = pre ++ server :: post) (httl : 0 ≤ server.ttl)
    (honly : server.only = none) (hhost : fqdn host = name) (hcached : r.Cached name s)
    (hpre : ∀ family ∈ families callerPref, r.Settled name pre s family) :
    r.Cached name (r.resolveVia s server host callerPref).1 ∧
      r.Grows name s (r.resolveVia s server host callerPref).1 ∧
      r.Outcome name pre server (families callerPref)
        (r.resolveVia s server host callerPref) := by
  subst hhost
  cases callerPref with
  | some f =>
    rw [resolveVia_some honly]
    have hf := hpre f (mem_singleton_self f)
    obtain ⟨hcached', hgrows, hanswered⟩ :=
      resolveFamily_spec hsplit httl hcached (hf.imp_left fun h => h.1)
    exact ⟨hcached', hgrows, hanswered.outcome⟩
  | none =>
    rw [resolveVia_none honly]
    have hfams := mem_families_none (firstFamily server)
    generalize firstFamily server = f at hfams ⊢
    have hf := hpre f ((hfams f).mpr mem_cons_self)
    have hg := hpre f.other ((hfams f.other).mpr (mem_cons_of_mem f mem_cons_self))
    obtain ⟨hcached₁, hgrows₁, hanswered₁⟩ :=
      resolveFamily_spec hsplit httl hcached (hf.imp_left fun h => h.1)
    obtain ⟨hcached₂, hgrows₂, hanswered₂⟩ :=
      resolveFamily_spec hsplit httl hcached₁ ((hg.grows hgrows₁).imp_left fun h => h.1)
    rcases hanswered₁.outcome with ⟨_, hmem, ips, hne, hips, haddr⟩ | ⟨hnil, hsettled₁⟩
    · rw [if_neg (by rwa [hips, getD_some, List.isEmpty_iff])]
      rw [mem_singleton] at hmem
      exact ⟨hcached₁, hgrows₁, .inl ⟨f, (hfams f).mpr mem_cons_self, ips, hne, hips,
        hmem ▸ haddr⟩⟩
    · rw [if_pos (by rw [hnil]; rfl)]
      refine ⟨hcached₂, hgrows₁.trans hgrows₂, ?_⟩
      rcases hanswered₂.outcome with ⟨_, hmem, ips, hne, hips, haddr⟩ | ⟨hnil₂, hsettled₂⟩
      · rw [mem_singleton] at hmem
        exact .inl ⟨f.other, (hfams f.other).mpr (mem_cons_of_mem f mem_cons_self), ips,
          hne, hips, hmem ▸ haddr⟩
      · refine .inr ⟨hnil₂, fun family hfamily => ?_⟩
        rcases mem_cons.mp ((hfams family).mp hfamily) with rfl | hother
        · exact (hsettled₁ _ (mem_singleton_self _)).grows hgrows₂
        · exact hsettled₂ family hother

/-- The first answers for a name, as far as there are any, have an address. -/
def Full (r : LocalResolver IP) (name : Bytes) : Prop :=
  ∀ family, r.addresses name family ≠ some []

theorem addresses_of_lookup (hcached : r.Cached (fqdn host) s)
    (h : r.lookup s host family = some (ips, ttl)) : r.addresses (fqdn host) family = some ips := by
  obtain ⟨⟨mr, ttl'⟩, hload, heq⟩ := map_eq_some_iff.mp h
  obtain ⟨item, hitem, hmr⟩ := map_eq_some_iff.mp hload
  rw [Prod.mk.injEq] at heq hmr
  rw [hcached family item hitem, ← heq.1, ← hmr.1, extractIPs_mapTTL]

theorem addresses_of_lookupCache (honly : server.only = none) (hcached : r.Cached (fqdn host) s)
    (h : r.lookupCache s server host callerPref = some (ips, ttl)) :
    ∃ family ∈ families callerPref, r.addresses (fqdn host) family = some ips := by
  cases callerPref with
  | some f =>
    rw [lookupCache_some honly] at h
    exact ⟨f, mem_singleton_self f, addresses_of_lookup hcached h⟩
  | none =>
    rw [lookupCache_none honly] at h
    have hfams := mem_families_none (firstFamily server)
    split_ifs at h
    · exact ⟨_, (hfams _).mpr (mem_cons_of_mem _ mem_cons_self),
        addresses_of_lookup hcached h⟩
    · exact ⟨_, (hfams _).mpr mem_cons_self, addresses_of_lookup hcached h⟩

theorem Known.of_grows (h : r.Known name s) (hgrows : r.Grows name s s')
    (hcached : r.Cached name s') : r.Known name s' :=
  ⟨hcached, by rw [hgrows.jobs]; exact h.jobs⟩

/-- One round of the loop of `Resolve`. -/
theorem resolveServer_spec (hsplit : r.servers = pre ++ server :: post) (httl : 0 ≤ server.ttl)
    (honly : server.only = none) (hcond : server.async = false ∨ r.Full name)
    (hhost : fqdn host = name) (hknown : r.Known name s)
    (hpre : ∀ family ∈ families callerPref, r.Settled name pre s family) :
    r.Known name (r.resolveServer s server host callerPref).1 ∧
      r.Outcome name pre server (families callerPref)
        (r.resolveServer s server host callerPref) := by
  have hvia : r.Known name (r.resolveVia s server host callerPref).1 ∧
      r.Outcome name pre server (families callerPref)
        (r.resolveVia s server host callerPref) := by
    obtain ⟨hcached, hgrows, houtcome⟩ :=
      resolveVia_spec hsplit httl honly hhost hknown.cached hpre
    exact ⟨hknown.of_grows hgrows hcached, houtcome⟩
  unfold resolveServer
  split_ifs with hasync
  · have hfull : r.Full name := hcond.resolve_left (by rw [hasync]; nofun)
    subst hhost
    unfold resolveAsync
    split
    · exact hvia
    next ips ttl hhit =>
      obtain ⟨f, hf, haddr⟩ := addresses_of_lookupCache honly hknown.cached hhit
      have hne : ips ≠ [] := fun h => hfull f (h ▸ haddr)
      split_ifs
      · refine ⟨⟨hknown.cached, fun job hjob hname => ?_⟩, .inl ⟨f, hf, ips, hne, rfl, haddr⟩⟩
        rcases mem_append.mp hjob with hjob | hjob
        · exact hknown.jobs job hjob hname
        · rw [mem_singleton] at hjob
          subst hjob
          refine ⟨pre, post, hsplit, fun family hfamily => ?_⟩
          exact (hpre family hfamily).resolve_left fun h => hfull family h.2
      · exact ⟨hknown, .inl ⟨f, hf, ips, hne, rfl, haddr⟩⟩
  · exact hvia

end

/-! ## All nameservers -/

/-- The first answer for a family that the caller asks for has an address. -/
def Found (r : LocalResolver IP) (name : Bytes) (asked : List Family) : Prop :=
  ∃ family ∈ asked, ∃ ips, ips ≠ [] ∧ r.addresses name family = some ips

theorem not_found_of_settled {asked : List Family}
    (h : ∀ family ∈ asked, r.Settled name r.servers s family) : ¬ r.Found name asked := by
  rintro ⟨family, hfamily, ips, hne, haddr⟩
  rcases h family hfamily with ⟨-, hempty⟩ | hsilent
  · rw [haddr, some.injEq] at hempty
    exact hne hempty
  · rw [addresses, findSome?_eq_none_iff.mpr hsilent] at haddr
    cases haddr

theorem resolveLoop_spec (httl : ∀ server ∈ r.servers, 0 ≤ server.ttl)
    (honly : ∀ server ∈ r.servers, server.only = none)
    (hcond : (∀ server ∈ r.servers, server.async = false) ∨ r.Full name) (hhost : fqdn host = name)
    (hsplit : r.servers = pre ++ post) (hknown : r.Known name s)
    (hpre : ∀ family ∈ families callerPref, r.Settled name pre s family) {last : Option (List IP)}
    (hlast : last.getD [] = []) :
    r.Known name (r.resolveLoop host callerPref post s last).1 ∧
      ((r.resolveLoop host callerPref post s last).2.getD [] ≠ [] ↔
        r.Found name (families callerPref)) := by
  induction post generalizing pre s last with
  | nil =>
    rw [append_nil] at hsplit
    rw [← hsplit] at hpre
    exact ⟨hknown, iff_of_false (not_not.mpr hlast) (not_found_of_settled hpre)⟩
  | cons server post ih =>
    have hmem : server ∈ r.servers := by
      rw [hsplit]
      exact mem_append_right _ mem_cons_self
    obtain ⟨hknown', houtcome⟩ := resolveServer_spec hsplit (httl server hmem) (honly server hmem)
      (hcond.imp_left fun h => h server hmem) hhost hknown hpre
    rw [resolveLoop]
    dsimp only
    rcases houtcome with ⟨f, hf, ips, hne, hips, haddr⟩ | ⟨hnil, hsettled⟩
    · have hsome : ((r.resolveServer s server host callerPref).2.getD []) = ips := by rw [hips]; rfl
      rw [hsome, if_neg (mt List.isEmpty_iff.mp hne), hsome]
      exact ⟨hknown', iff_of_true hne ⟨f, hf, ips, hne, haddr⟩⟩
    · rw [if_pos (isEmpty_iff.mpr hnil)]
      exact ih (by rw [hsplit, append_assoc]; rfl) hknown' hsettled hnil

/-! ## Other names -/

/-- A call for another host relates its states if each question and each new job does. -/
theorem resolveLoop_rel {R : State IP → State IP → Prop} (hrefl : ∀ s, R s s)
    (htrans : ∀ {s s' s''}, R s s' → R s' s'' → R s s'')
    (hvia : ∀ s server, R s (r.resolveVia s server host callerPref).1)
    (hjob : ∀ (s : State IP) server, R s { s with jobs := s.jobs ++ [⟨server, host, callerPref⟩] })
    (servers : List (NameServer IP)) (s : State IP) (last : Option (List IP)) :
    R s (r.resolveLoop host callerPref servers s last).1 := by
  have hserver : ∀ s server, R s (r.resolveServer s server host callerPref).1 := by
    intro s server
    unfold resolveServer resolveAsync
    split_ifs
    · split
      · exact hvia s server
      · split_ifs
        · exact hjob s server
        · exact hrefl s
    · exact hvia s server
  induction servers generalizing s last with
  | nil => exact hrefl s
  | cons server servers ih =>
    rw [resolveLoop]
    dsimp only
    split_ifs
    · exact htrans (hserver s server) (ih _ _)
    · exact hserver s server

/-- What is known about the name is the same. -/
structure Apart (r : LocalResolver IP) (name : Bytes) (s s' : State IP) : Prop where
  lookup : ∀ family, s'.cache.lookup (r.texts.key (query name family)) =
    s.cache.lookup (r.texts.key (query name family))
  jobs : ∀ job ∈ s'.jobs, fqdn job.host = name → job ∈ s.jobs

theorem Apart.refl (s : State IP) : r.Apart name s s := ⟨fun _ => rfl, fun _ h _ => h⟩

theorem Apart.trans {s'' : State IP} (h : r.Apart name s s') (h' : r.Apart name s' s'') :
    r.Apart name s s'' :=
  ⟨fun family => (h'.lookup family).trans (h.lookup family),
    fun job hjob hname => h.jobs job (h'.jobs job hjob hname) hname⟩

theorem Known.of_apart (h : r.Known name s) (hapart : r.Apart name s s') : r.Known name s' :=
  ⟨fun family item hitem => h.cached family item (hapart.lookup family ▸ hitem),
    fun job hjob hname => h.jobs job (hapart.jobs job hjob hname) hname⟩

theorem apart_resolveFamily (hhost : fqdn host ≠ name) (s : State IP) (server : NameServer IP)
    (family : Family) : r.Apart name s (r.resolveFamily s server host family).1 := by
  have hask : r.Apart name s (r.ask s server (question host family)).1 := by
    unfold ask
    split
    · exact .refl s
    · exact ⟨fun family' => Cache.lookup_store_of_ne fun h => hhost (key_query_inj h).1.symm,
        fun _ h _ => h⟩
  unfold resolveFamily resolveIPs
  split
  · split_ifs
    · exact .refl s
    · exact hask
  · exact hask

theorem apart_resolveVia (hhost : fqdn host ≠ name) (s : State IP) (server : NameServer IP)
    (callerPref : Option Family) : r.Apart name s (r.resolveVia s server host callerPref).1 := by
  have hfamily := fun s => apart_resolveFamily (r := r) hhost s server
  unfold resolveVia
  split_ifs
  all_goals
    dsimp only
    split_ifs
    · exact hfamily s _
    · exact (hfamily s _).trans (hfamily _ _)

theorem apart_job (hhost : fqdn host ≠ name) (s : State IP) (server : NameServer IP)
    (callerPref : Option Family) :
    r.Apart name s { s with jobs := s.jobs ++ [⟨server, host, callerPref⟩] } := by
  refine ⟨fun _ => rfl, fun job hjob hname => ?_⟩
  rcases mem_append.mp hjob with hjob | hjob
  · exact hjob
  · rw [mem_singleton] at hjob
    rw [hjob] at hname
    exact absurd hname hhost

/-! ## Runs -/

theorem known_init : r.Known name {} :=
  ⟨fun _ _ h => (some_ne_none _ h.symm).elim, fun _ h => absurd h not_mem_nil⟩

section

variable (httl : ∀ server ∈ r.servers, 0 ≤ server.ttl)
  (honly : ∀ server ∈ r.servers, server.only = none)
  (hcond : (∀ server ∈ r.servers, server.async = false) ∨ r.Full name)

include httl honly hcond in
theorem resolve_known (hknown : r.Known name s) (network host : Bytes) :
    r.Known name (r.resolve s network host).1 := by
  unfold resolve
  split
  · exact hknown
  · by_cases hhost : fqdn (r.qualify host) = name
    · exact (resolveLoop_spec httl honly hcond hhost (nil_append _).symm hknown
        (fun _ _ => .inr nofun) rfl).1
    · exact hknown.of_apart (resolveLoop_rel .refl .trans
        (fun s server => apart_resolveVia hhost s server _)
        (fun s server => apart_job hhost s server _) ..)

include httl honly in
theorem refresh_known (hknown : r.Known name s) {i : ℕ} {job : Job IP}
    (hjob : s.jobs[i]? = some job) :
    r.Known name (r.resolveVia { s with jobs := s.jobs.eraseIdx i } job.server job.host
      job.callerPref).1 := by
  have hrest : r.Known name { s with jobs := s.jobs.eraseIdx i } :=
    ⟨hknown.cached, fun job hjob => hknown.jobs job (mem_of_mem_eraseIdx hjob)⟩
  by_cases hhost : fqdn job.host = name
  · obtain ⟨pre, post, hsplit, hsilent⟩ := hknown.jobs job (mem_of_getElem? hjob) hhost
    have hmem : job.server ∈ r.servers := by
      rw [hsplit]
      exact mem_append_right _ mem_cons_self
    obtain ⟨hcached, hgrows, -⟩ := resolveVia_spec hsplit (httl _ hmem) (honly _ hmem) hhost
      hrest.cached (fun family hfamily => .inr (hsilent family hfamily))
    exact hrest.of_grows hgrows hcached
  · exact hrest.of_apart (apart_resolveVia hhost _ _ _)

include httl honly hcond in
theorem step_known {op : Op} (hknown : r.Known name s) (h : r.step s op = some s') :
    r.Known name s' := by
  cases op with
  | resolve network host =>
    cases h
    exact resolve_known httl honly hcond hknown network host
  | tick d =>
    cases h
    exact ⟨hknown.cached, hknown.jobs⟩
  | refresh i =>
    obtain ⟨job, hjob, rfl⟩ := map_eq_some_iff.mp h
    exact refresh_known httl honly hknown hjob

end

/-- After every run: `Resolve` finds an address if and only if the host is one, or the first answer
for a family that is asked for has one. -/
theorem resolve_ne_nil_iff (r : LocalResolver IP) (network host : Bytes)
    (httl : ∀ server ∈ r.servers, 0 ≤ server.ttl)
    (honly : ∀ server ∈ r.servers, server.only = none)
    (hcond : (∀ server ∈ r.servers, server.async = false) ∨ r.Full (fqdn (r.qualify host)))
    {ops : List Op} {s : State IP} (hrun : run r.step {} ops = some s) :
    (r.resolve s network host).2.getD [] ≠ [] ↔
      (r.parseIP host).isSome ∨
        r.Found (fqdn (r.qualify host)) (families (callerNetworkPref network)) := by
  have hknown : r.Known (fqdn (r.qualify host)) s :=
    run_induction (fun _ _ _ hs h => step_known httl honly hcond hs h) known_init hrun
  unfold resolve
  cases hip : r.parseIP host with
  | some ip => exact iff_of_true (cons_ne_nil ip []) (.inl rfl)
  | none =>
    rw [isSome_none, or_iff_right Bool.false_ne_true]
    exact (resolveLoop_spec httl honly hcond rfl (nil_append _).symm hknown
      (fun _ _ => .inr nofun) rfl).2

/-- A resolver with nameservers that give one answer each to every question for a family. -/
def fixed (servers : List (Bool × (ℕ → Option (List ℕ)))) : LocalResolver ℕ where
  servers := servers.map fun (async, ips) =>
    ⟨0, none, none, async, fun q => (ips q.qtype).map fun ips =>
      ⟨0, [q], 0, ips.map fun ip => ⟨.a ip, 300⟩⟩⟩
  domain := []
  texts := addressTexts
  parseIP _ := none

/-- A nameserver that fails is passed over, in the first call and in a later one. -/
theorem resolve_behind_error :
    let r := fixed [(false, fun _ => none), (false, fun _ => some [7])]
    ∃ s, run r.step {} [.resolve (bytes "ip4") (bytes "a"), .tick 5] = some s ∧
      (r.resolve s (bytes "ip") (bytes "a")).2.getD [] ≠ [] := by
  intro r
  obtain ⟨s, hrun⟩ : ∃ s, run r.step {} [.resolve (bytes "ip4") (bytes "a"), .tick 5] = some s :=
    ⟨_, rfl⟩
  refine ⟨s, hrun, (resolve_ne_nil_iff r (bytes "ip") (bytes "a") (by decide) (by decide)
    (.inl (by decide)) hrun).mpr (.inr ?_)⟩
  exact ⟨.ipv4, by decide, [7], by decide, by decide +kernel⟩

/-- One that answers with nothing is not: the next one has the address. Nor is the other family
asked for if an `Async` nameserver has found nothing in the first. -/
theorem resolve_behind_empty :
    ((fixed [(false, fun _ => some []), (false, fun _ => some [7])]).resolve {} (bytes "ip4")
      (bytes "a")).2 = some [] ∧
    ((run (fixed [(true, fun t => some (if t = typeA then [7] else []))]).step {}
      [.resolve (bytes "ip6") (bytes "a")]).map fun s =>
        ((fixed [(true, fun t => some (if t = typeA then [7] else []))]).resolve s (bytes "ip")
          (bytes "a")).2) = some (some []) := by
  decide +kernel

end Resolver.LocalResolver
