import Mathlib.Data.List.Induction
import Gost.ConnLimit.Limiter

/-!
# The tables of the connection limiter

What a lookup and a reload do to the limiters and the maps. Both only add limiters that count
nothing yet. After a reload every global and single-IP rule has one limiter with the configured
limit, and a lookup for a client puts it into the client's group.
-/

namespace ConnLimit

open List Option

variable {ι ν : Type} {net : Net ι ν} {key host : Bytes}

/-- The key of a global or a single-IP rule. -/
def Net.Single (net : Net ι ν) (key : Bytes) : Prop :=
  key = globalLimitKey ∨ key ≠ [] ∧ key ≠ ipLimitKey ∧ (net.parseIP key).isSome

/-- The rule with this key is for the client. -/
def Applies (key host : Bytes) : Prop := key = globalLimitKey ∨ host = key

instance (key host : Bytes) : Decidable (Applies key host) :=
  inferInstanceAs (Decidable (_ ∨ _))

/-- The limit for a key: the last rule for it with a positive limit counts. -/
def configured (rules : List Rule) (key : Bytes) : Option ℤ :=
  ((rules.filter fun r => r.key = key ∧ 0 < r.limit).getLast?).map (·.limit)

theorem configured_concat (rules : List Rule) (r : Rule) (key : Bytes) :
    configured (rules ++ [r]) key =
      if r.key = key ∧ 0 < r.limit then some r.limit else configured rules key := by
  unfold configured
  by_cases h : r.key = key ∧ 0 < r.limit
  · simp [h]
  · simp [h]

variable {n : ℤ}

theorem configured_pos {rules : List Rule} (h : configured rules key = some n) : 0 < n := by
  obtain ⟨r, hr, rfl⟩ := map_eq_some_iff.mp h
  have hmem := mem_of_getLast? hr
  rw [mem_filter, decide_eq_true_eq] at hmem
  exact hmem.2.2

namespace ConnLimiter

variable {l l' l'' : ConnLimiter ν}

/-- Limiters were added that count nothing. -/
def Extends (l l' : ConnLimiter ν) : Prop :=
  ∃ fresh, l'.limiters = l.limiters ++ fresh ∧ ∀ x ∈ fresh, 0 < x.limit ∧ x.current = 0

theorem Extends.refl (l : ConnLimiter ν) : l.Extends l := ⟨[], (append_nil _).symm, nofun⟩

theorem Extends.trans (h : l.Extends l') (h' : l'.Extends l'') : l.Extends l'' := by
  obtain ⟨fresh, heq, hfresh⟩ := h
  obtain ⟨fresh', heq', hfresh'⟩ := h'
  refine ⟨fresh ++ fresh', by rw [heq', heq, append_assoc], fun x hx => ?_⟩
  rcases mem_append.mp hx with hx | hx
  · exact hfresh x hx
  · exact hfresh' x hx

theorem Extends.length_le (h : l.Extends l') : l.limiters.length ≤ l'.limiters.length := by
  obtain ⟨fresh, heq, -⟩ := h
  rw [heq, length_append]
  exact Nat.le_add_right _ _

variable {o : ℕ} {x : LLimiter} {g : Option Generator}

theorem Extends.getElem? (h : l.Extends l') (hx : l.limiters[o]? = some x) :
    l'.limiters[o]? = some x := by
  obtain ⟨fresh, heq, -⟩ := h
  rw [heq, List.getElem?_append_left (List.getElem?_eq_some_iff.mp hx).1, hx]

/-- A limiter of the extension was there before, or it is new and counts nothing. -/
theorem Extends.cases (h : l.Extends l') (hx : l'.limiters[o]? = some x) :
    l.limiters[o]? = some x ∨ l.limiters.length ≤ o ∧ 0 < x.limit ∧ x.current = 0 := by
  obtain ⟨fresh, heq, hfresh⟩ := h
  rw [heq] at hx
  rcases Nat.lt_or_ge o l.limiters.length with ho | ho
  · rw [getElem?_append_left ho] at hx
    exact .inl hx
  · rw [getElem?_append_right ho] at hx
    exact .inr ⟨ho, hfresh x (mem_of_getElem? hx)⟩

theorem extends_newLimiter (hn : 0 < n) : l.Extends (l.newLimiter n).1 :=
  ⟨[{ limit := n }], rfl, fun x hx => by rw [mem_singleton.mp hx]; exact ⟨hn, rfl⟩⟩

/-- Limiters were added, and the maps are the same. -/
structure Grows (l l' : ConnLimiter ν) : Prop where
  toExtends : l.Extends l'
  ipLimits : l'.ipLimits = l.ipLimits
  cidrLimits : l'.cidrLimits = l.cidrLimits
  limits : l'.limits = l.limits

theorem Grows.refl (l : ConnLimiter ν) : l.Grows l := ⟨.refl l, rfl, rfl, rfl⟩

theorem Grows.trans (h : l.Grows l') (h' : l'.Grows l'') : l.Grows l'' :=
  ⟨h.toExtends.trans h'.toExtends, h'.ipLimits.trans h.ipLimits,
    h'.cidrLimits.trans h.cidrLimits, h'.limits.trans h.limits⟩

/-- The maps name limiters that exist. -/
structure WellFormed (l : ConnLimiter ν) : Prop where
  ipLimits : ∀ key o, l.ipLimits key = some (.single (some o)) → o < l.limiters.length
  cidrLimits : ∀ p ∈ l.cidrLimits, ∀ o, p.2 = .single (some o) → o < l.limiters.length
  limits : ∀ key group, l.limits key = some group → ∀ o ∈ group, o < l.limiters.length

theorem WellFormed.grows (hl : l.WellFormed) (h : l.Grows l') : l'.WellFormed where
  ipLimits key o ho := (hl.ipLimits key o (h.ipLimits ▸ ho)).trans_le h.toExtends.length_le
  cidrLimits p hp o ho :=
    (hl.cidrLimits p (h.cidrLimits ▸ hp) o ho).trans_le h.toExtends.length_le
  limits key group hg o ho :=
    (hl.limits key group (h.limits ▸ hg) o ho).trans_le h.toExtends.length_le

/-! ## Lookup -/

theorem generate_grows (l : ConnLimiter ν) (g : Option Generator) : l.Grows (l.generate g).1 := by
  match g with
  | none => exact .refl l
  | some (.single limiter) => exact .refl l
  | some (.each n) =>
    dsimp only [generate]
    split_ifs with hn
    · exact .refl l
    · exact ⟨extends_newLimiter (by omega), rfl, rfl, rfl⟩

/-- A generated limiter is the one of a single generator, or a new one. -/
theorem generate_lt (hg : ∀ o, g = some (.single (some o)) → o < l.limiters.length)
    (h : (l.generate g).2 = some o) : o < (l.generate g).1.limiters.length := by
  match g with
  | none => cases h
  | some (.single limiter) =>
    obtain rfl : limiter = some o := h
    exact hg o rfl
  | some (.each n) =>
    dsimp only [generate] at h ⊢
    split_ifs at h with hn
    rw [if_neg hn]
    cases h
    show l.limiters.length < (l.limiters ++ _).length
    rw [length_append]
    exact Nat.lt_succ_self _

theorem cidrLimit_lt (hl : l.WellFormed) {ip : ι} (o : ℕ)
    (h : l.cidrLimit net ip = some (.single (some o))) : o < l.limiters.length := by
  obtain ⟨p, hp, hpo⟩ := map_eq_some_iff.mp h
  obtain ⟨i, -, hi⟩ := bind_eq_some_iff.mp hp
  exact hl.cidrLimits p (mem_of_getElem? hi) o hpo

/-- A source of limiters adds limiters only, and returns one that exists. -/
structure Finds (l : ConnLimiter ν) (found : ConnLimiter ν × Option ℕ) : Prop where
  grows : l.Grows found.1
  lt : ∀ o, found.2 = some o → o < found.1.limiters.length

theorem finds_generate (hg : ∀ o, g = some (.single (some o)) → o < l.limiters.length) :
    l.Finds (l.generate g) :=
  ⟨generate_grows l g, fun _ => generate_lt hg⟩

theorem Finds.orElse {found : ConnLimiter ν × Option ℕ} (h : l.Finds found)
    {other : ConnLimiter ν → ConnLimiter ν × Option ℕ}
    (h' : l.Grows found.1 → found.1.Finds (other found.1)) : l.Finds (orElse found other) := by
  obtain ⟨l₁, o | o⟩ := found
  · exact ⟨h.grows.trans (h' h.grows).grows, (h' h.grows).lt⟩
  · exact h

theorem finds_ownLimiter (hl : l.WellFormed) : l.Finds (l.ownLimiter net key) := by
  unfold ownLimiter
  cases net.parseIP key with
  | none => exact ⟨.refl l, nofun⟩
  | some ip =>
    refine (finds_generate (hl.ipLimits key)).orElse fun hgrows => finds_generate ?_
    exact cidrLimit_lt (hl.grows hgrows)

theorem finds_clientLimiter (hl : l.WellFormed) : l.Finds (l.clientLimiter net key) :=
  (finds_ownLimiter hl).orElse fun hgrows => finds_generate ((hl.grows hgrows).ipLimits ipLimitKey)

/-- The limiter of a single-IP rule is the one of its client. -/
theorem clientLimiter_of_single (hip : (net.parseIP key).isSome)
    (h : l.ipLimits key = some (.single (some o))) : l.clientLimiter net key = (l, some o) := by
  obtain ⟨ip, hip⟩ := isSome_iff_exists.mp hip
  unfold clientLimiter ownLimiter
  rw [hip, h]
  rfl

theorem collect_grows (hl : l.WellFormed) (host : Bytes) : l.Grows (l.collect net host).1 :=
  (finds_clientLimiter hl).grows.trans (generate_grows _ _)

theorem collect_lt (hl : l.WellFormed) (ho : o ∈ (l.collect net host).2) :
    o < (l.collect net host).1.limiters.length := by
  have hclient : l.Finds (l.clientLimiter net host) := finds_clientLimiter hl
  have hglobal := finds_generate ((hl.grows hclient.grows).ipLimits globalLimitKey)
  rcases mem_append.mp ho with ho | ho
  · exact (hclient.lt o (mem_toList.mp ho)).trans_le hglobal.grows.toExtends.length_le
  · exact hglobal.lt o (mem_toList.mp ho)

/-- The limiters of all single rules for the client are among those collected. -/
theorem mem_collect (hl : l.WellFormed) (hkey : net.Single key) (happ : Applies key host)
    (h : l.ipLimits key = some (.single (some o))) : o ∈ (l.collect net host).2 := by
  by_cases hglobal : key = globalLimitKey
  · subst hglobal
    refine mem_append_right _ (mem_toList.mpr ?_)
    have hsame : (l.clientLimiter net host).1.ipLimits = l.ipLimits :=
      (finds_clientLimiter hl).grows.ipLimits
    show (generate _ ((l.clientLimiter net host).1.ipLimits globalLimitKey)).2 = some o
    rw [hsame, h]
    rfl
  · obtain rfl : host = key := happ.resolve_left hglobal
    obtain ⟨-, -, hip⟩ := hkey.resolve_left hglobal
    refine mem_append_left _ (mem_toList.mpr ?_)
    show (l.clientLimiter net host).2 = some o
    rw [clientLimiter_of_single hip h]

/-- What `Limiter` does. The group has limiters that exist, it is cached, and if it is new it has
the limiters of the single rules for the client. -/
structure LimiterSpec (net : Net ι ν) (l : ConnLimiter ν) (host : Bytes)
    (res : ConnLimiter ν × Option (List ℕ)) : Prop where
  toExtends : l.Extends res.1
  ipLimits : res.1.ipLimits = l.ipLimits
  wellFormed : res.1.WellFormed
  lt : ∀ group, res.2 = some group → ∀ o ∈ group, o < res.1.limiters.length
  limits : ∀ k, res.1.limits k = l.limits k ∨ k = host ∧ res.1.limits k = res.2
  group : (∃ g, l.limits host = some g ∧ res.2 = some g) ∨ ∀ key o, net.Single key →
    Applies key host → l.ipLimits key = some (.single (some o)) → ∃ g, res.2 = some g ∧ o ∈ g

theorem limiter_spec (hl : l.WellFormed) (host : Bytes) :
    LimiterSpec net l host (l.limiter net host) := by
  cases hcache : l.limits host with
  | some group =>
    have hres : l.limiter net host = (l, some group) := by rw [limiter, hcache]
    rw [hres]
    exact ⟨.refl l, rfl, hl, fun g hg => some.inj hg ▸ hl.limits host group hcache,
      fun _ => .inl rfl, .inl ⟨group, hcache, rfl⟩⟩
  | none =>
    have hgrows : l.Grows (l.collect net host).1 := collect_grows hl host
    by_cases hnil : (l.collect net host).2 = []
    · have hres : l.limiter net host = ((l.collect net host).1, none) := by
        rw [limiter, hcache]
        exact if_pos hnil
      rw [hres]
      refine ⟨hgrows.toExtends, hgrows.ipLimits, hl.grows hgrows, nofun,
        fun k => .inl (congrFun hgrows.limits k), .inr fun key o hkey happ ho => ?_⟩
      have hmem : o ∈ (l.collect net host).2 := mem_collect hl hkey happ ho
      rw [hnil] at hmem
      cases hmem
    · let l₁ := (l.collect net host).1
      let group := l₁.newLimiterGroup (l.collect net host).2
      have hres : l.limiter net host =
          ({ l₁ with limits := fun k => if k = host then some group else l₁.limits k },
            some group) := by
        rw [limiter, hcache]
        exact if_neg hnil
      have hmem {o : ℕ} : o ∈ group ↔ o ∈ (l.collect net host).2 :=
        (perm_insertionSort _ _).mem_iff
      have hwf := hl.grows hgrows
      rw [hres]
      refine ⟨hgrows.toExtends, hgrows.ipLimits, ⟨hwf.ipLimits, hwf.cidrLimits, ?_⟩, ?_, ?_, ?_⟩
      · intro k g hg
        dsimp only at hg
        split_ifs at hg
        · cases hg
          exact fun o ho => collect_lt hl (hmem.mp ho)
        · exact hwf.limits k g hg
      · intro g hg o ho
        cases hg
        exact collect_lt hl (hmem.mp ho)
      · intro k
        dsimp only
        split_ifs with hk
        · exact .inr ⟨hk, rfl⟩
        · exact .inl (congrFun hgrows.limits k)
      · exact .inr fun key o hkey happ ho =>
          ⟨group, rfl, hmem.mpr (mem_collect hl hkey happ ho)⟩

/-! ## Reload -/

theorem setSingle_eq (hn : 0 < n) (key : Bytes) :
    l.setSingle key n =
      (l.newLimiter n).1.setIPLimit key (.single (some l.limiters.length)) :=
  if_pos hn

theorem WellFormed.setIPLimit (hl : l.WellFormed) {g : Generator}
    (hg : ∀ o, g = .single (some o) → o < l.limiters.length) : (l.setIPLimit key g).WellFormed where
  ipLimits k o ho := by
    dsimp only [ConnLimiter.setIPLimit] at ho
    split_ifs at ho
    · exact hg o (some.inj ho)
    · exact hl.ipLimits k o ho
  cidrLimits := hl.cidrLimits
  limits := hl.limits

theorem grows_newLimiter (hn : 0 < n) : l.Grows (l.newLimiter n).1 :=
  ⟨extends_newLimiter hn, rfl, rfl, rfl⟩

/-- What one rule does. -/
structure RuleSpec (net : Net ι ν) (l : ConnLimiter ν) (r : Rule) (l' : ConnLimiter ν) : Prop where
  toExtends : l.Extends l'
  limits : l'.limits = l.limits
  wellFormed : l.WellFormed → l'.WellFormed
  single : net.Single r.key → 0 < r.limit → ∃ o, l'.ipLimits r.key = some (.single (some o)) ∧
    l'.limiters[o]? = some { limit := r.limit }
  other : ∀ key, net.Single key → ¬(r.key = key ∧ 0 < r.limit) → l'.ipLimits key = l.ipLimits key

theorem ruleSpec_setSingle {r : Rule} (hlimit : 0 < r.limit) :
    RuleSpec net l r (l.setSingle r.key r.limit) := by
  rw [setSingle_eq hlimit]
  refine ⟨extends_newLimiter hlimit, rfl, fun hl => ?_, fun _ _ => ?_, fun key _ hkey => ?_⟩
  · refine (hl.grows (grows_newLimiter hlimit)).setIPLimit fun o ho => ?_
    obtain rfl := some.inj (Generator.single.inj ho)
    exact length_append ▸ Nat.lt_succ_self _
  · refine ⟨l.limiters.length, if_pos rfl, ?_⟩
    show (l.limiters ++ [_])[l.limiters.length]? = _
    rw [getElem?_append_right le_rfl, Nat.sub_self]
    rfl
  · exact if_neg fun h => hkey ⟨h.symm, hlimit⟩

theorem not_single_nil : ¬net.Single [] := by
  rintro (h | ⟨h, -⟩)
  · exact absurd h (by decide)
  · exact h rfl

theorem not_single_ipLimitKey : ¬net.Single ipLimitKey := by
  rintro (h | ⟨-, h, -⟩)
  · exact absurd h (by decide)
  · exact h rfl

theorem addRule_spec (l : ConnLimiter ν) (r : Rule) : RuleSpec net l r (l.addRule net r) := by
  unfold addRule
  split_ifs with hskip hglobal hip hparse
  · refine ⟨.refl l, rfl, id, fun hsingle hlimit => ?_, fun _ _ _ => rfl⟩
    rcases hskip with hnil | hle
    · exact absurd (hnil ▸ hsingle) not_single_nil
    · exact absurd hlimit (not_lt.mpr hle)
  · exact ruleSpec_setSingle (by omega)
  · refine ⟨.refl l, rfl, fun hl => hl.setIPLimit nofun, fun hsingle => ?_, fun key hkey _ => ?_⟩
    · exact absurd (hip ▸ hsingle) not_single_ipLimitKey
    · exact if_neg fun h => not_single_ipLimitKey (hip ▸ h ▸ hkey)
  · exact ruleSpec_setSingle (by omega)
  · have hnot : ¬net.Single r.key := by
      rintro (h | ⟨-, -, h⟩)
      · exact hglobal h
      · exact hparse h
    cases net.parseCIDR r.key with
    | none => exact ⟨.refl l, rfl, id, fun h => absurd h hnot, fun _ _ _ => rfl⟩
    | some ipNet =>
      refine ⟨.refl l, rfl, fun hl => ⟨hl.ipLimits, fun p hp => ?_, hl.limits⟩,
        fun h => absurd h hnot, fun _ _ _ => rfl⟩
      rcases mem_append.mp hp with hp | hp
      · exact hl.cidrLimits p hp
      · rw [mem_singleton.mp hp]
        exact nofun

/-- What a reload does: it keeps the limiters, empties the cache, and gives every single rule a
limiter with the configured limit. -/
structure ReloadSpec (net : Net ι ν) (l : ConnLimiter ν) (rules : List Rule)
    (l' : ConnLimiter ν) : Prop where
  toExtends : l.Extends l'
  limits : ∀ key, l'.limits key = none
  wellFormed : l'.WellFormed
  single : ∀ key n, net.Single key → configured rules key = some n →
    ∃ o x, l'.ipLimits key = some (.single (some o)) ∧ l'.limiters[o]? = some x ∧ x.limit = n

theorem reload_spec (l : ConnLimiter ν) (rules : List Rule) :
    ReloadSpec net l rules (l.reload net rules) := by
  induction rules using reverseRecOn with
  | nil => exact ⟨.refl l, fun _ => rfl, ⟨nofun, nofun, nofun⟩, nofun⟩
  | append_singleton rules r ih =>
    have hrule : RuleSpec net (l.reload net rules) r _ := addRule_spec (l.reload net rules) r
    have hreload : l.reload net (rules ++ [r]) = (l.reload net rules).addRule net r := by
      rw [reload, foldl_append]
      rfl
    rw [hreload]
    refine ⟨ih.toExtends.trans hrule.toExtends, fun key => ?_, hrule.wellFormed ih.wellFormed, ?_⟩
    · rw [hrule.limits, ih.limits]
    · intro key n hkey hn
      rw [configured_concat] at hn
      split_ifs at hn with hr
      · obtain ⟨rfl, hlimit⟩ := hr
        obtain ⟨o, ho, hx⟩ := hrule.single hkey hlimit
        exact ⟨o, _, ho, hx, some.inj hn⟩
      · obtain ⟨o, x, ho, hx, hlimit⟩ := ih.single key n hkey hn
        exact ⟨o, x, (hrule.other key hkey hr).trans ho, hrule.toExtends.getElem? hx, hlimit⟩

end ConnLimiter

end ConnLimit
