import Gost.Sniffer.EventStream
import Gost.Sniffer.Rewrite

/-!
# Streams of events without plugins

What `rewriteBody` makes of a body whose events are separated by `\n\n`, if no rule of the chain has
a plugin. A rule is then a function of the body alone: `ReplaceAll` of its pattern, an edit of a
JSON document, or nothing. `drains_patternChain` says which bytes are returned, and
`adds_nothing_iff` when these are the rewritten events and nothing else. At the end of the body the
chain runs on an empty body, where a pattern may match as well.
-/

namespace Sniffer.EventStream

open Delimiters List Scanner

/-! ## The chain -/

/-- `chain.HTTPBodyRewriteSettings` without a plugin. -/
structure PatternRule where
  type : Bytes
  replace : Bytes → Bytes

def PatternRule.toBodyRewrite (rule : PatternRule) : BodyRewrite where
  type := rule.type
  rewrite := fun body => some (rule.replace body)

/-- `apply` for such rules, which does not look at the metadata. -/
def patternChain (rules : List PatternRule) (contentType : Bytes) : Chain := fun _ body =>
  match applyRewrites (rules.map PatternRule.toBodyRewrite) contentType body with
  | some rewritten => (rewritten, true)
  | none => (body, false)

/-- The rules that apply, one after another. -/
def rewriteEvent (rules : List PatternRule) (contentType event : Bytes) : Bytes :=
  (rules.filter fun rule => shouldApply rule.toBodyRewrite contentType).foldl
    (fun body rule => rule.replace body) event

theorem foldlM_toBodyRewrite (rules : List PatternRule) (body : Bytes) :
    (rules.map PatternRule.toBodyRewrite).foldlM (fun body rule => rule.rewrite body) body =
      some (rules.foldl (fun body rule => rule.replace body) body) := by
  induction rules generalizing body with
  | nil => rfl
  | cons rule rules ih => exact ih (rule.replace body)

/-- Without a plugin the chain has no errors. -/
theorem patternChain_eq (rules : List PatternRule) (contentType : Bytes) (md : Meta)
    (body : Bytes) :
    patternChain rules contentType md body = (rewriteEvent rules contentType body, true) := by
  have happly : applyRewrites (rules.map PatternRule.toBodyRewrite) contentType body =
      some (rewriteEvent rules contentType body) := by
    rw [applyRewrites, filter_map, foldlM_toBodyRewrite]
    rfl
  rw [patternChain, happly]

/-! ## The events of a body -/

/-- The events of a body: the texts between delimiters, and what is behind the last one. -/
def splitEvents (event : Bytes) : Bytes → List Bytes
  | [] => if event = [] then [] else [event]
  | [c] => [event ++ [c]]
  | c :: c' :: s =>
    if c = 10 ∧ c' = 10 then event :: splitEvents [] s else splitEvents (event ++ [c]) (c' :: s)

/-- No other delimiter occurs in the body. -/
def Plain (body : Bytes) : Prop :=
  ¬[13, 10, 13, 10] <:+: body ∧ ¬[13, 13] <:+: body

instance (body : Bytes) : Decidable (Plain body) := inferInstanceAs (Decidable (_ ∧ _))

/-- Every event fits the scanner's buffer together with its delimiter. -/
def Fits (body : Bytes) : Prop := ∀ event ∈ splitEvents [] body, event.length + 2 ≤ maxTokenSize

instance (body : Bytes) : Decidable (Fits body) := inferInstanceAs (Decidable (∀ _ ∈ _, _))

/-- What can be an event of such a body. -/
structure IsEvent (event : Bytes) : Prop where
  plain : Plain event
  single : ¬lfLf <:+: event
  fits : event.length + 2 ≤ maxTokenSize

/-- The rewritten events with the delimiter behind each; events that are rewritten to nothing are
dropped. -/
def rewrittenEvents (rewrite : Bytes → Bytes) (body : Bytes) : Bytes :=
  (splitEvents [] body).flatMap fun event =>
    if rewrite event ≠ [] then rewrite event ++ lfLf else []

section SplitEvents

variable {event s tok rest : Bytes}

theorem find_lfLf_singleton (c : UInt8) : find lfLf [c] = none := by simp [find, lfLf]

theorem find_lfLf_cons (c c' : UInt8) (s : Bytes) :
    find lfLf (c :: c' :: s) =
      if c = 10 ∧ c' = 10 then some ([], s)
      else (find lfLf (c' :: s)).map fun p => (c :: p.1, p.2) := by
  refine if_congr ?_ rfl rfl
  rw [ isPrefixOf_iff_prefix, lfLf, cons_prefix_cons, cons_prefix_cons, eq_comm, @eq_comm _ 10 c']
  exact and_congr_right fun _ => and_iff_left nil_prefix

theorem splitEvents_of_find (h : find lfLf s = some (tok, rest)) :
    splitEvents event s = (event ++ tok) :: splitEvents [] rest := by
  induction event, s using splitEvents.induct generalizing tok with
  | case1 => cases h
  | case2 => cases h
  | case3 event c => exact absurd ((find_lfLf_singleton c).symm.trans h) nofun
  | case4 event c c' s hlf =>
    rw [find_lfLf_cons, if_pos hlf] at h
    cases h
    rw [splitEvents, if_pos hlf, append_nil]
  | case5 event c c' s hlf ih =>
    rw [find_lfLf_cons, if_neg hlf] at h
    obtain ⟨⟨tok', rest'⟩, hfind, heq⟩ := Option.map_eq_some_iff.mp h
    cases heq
    rw [splitEvents, if_neg hlf, ih hfind, append_assoc, singleton_append]

theorem splitEvents_of_find_eq_none (h : find lfLf s = none) (hne : event ++ s ≠ []) :
    splitEvents event s = [event ++ s] := by
  induction event, s using splitEvents.induct with
  | case1 => exact absurd rfl hne
  | case2 event hevent => rw [splitEvents, if_neg hevent, append_nil]
  | case3 event c => rw [splitEvents]
  | case4 event c c' s hlf =>
    rw [find_lfLf_cons, if_pos hlf] at h
    cases h
  | case5 event c c' s hlf ih =>
    rw [find_lfLf_cons, if_neg hlf, Option.map_eq_none_iff] at h
    rw [splitEvents, if_neg hlf, ih h (by simp), append_assoc, singleton_append]

end SplitEvents

/-- A delimiter is found in a plain body if it is the one that separates its events. -/
theorem findFirst_of_plain {s : Bytes} (h : Plain s) : findFirst delims s = find lfLf s := by
  have hone : find [13, 10, 13, 10] s = none := (find_eq_none_iff (by decide)).mpr h.1
  have htwo : find [13, 13] s = none := (find_eq_none_iff (by decide)).mpr h.2
  unfold findFirst delims
  rw [findSome?_cons, findSome?_cons, findSome?_cons, findSome?_nil, hone, htwo]
  cases find lfLf s with
  | none => rfl
  | some p => rfl

theorem Plain.of_isInfix {s t : Bytes} (h : Plain t) (hs : s <:+: t) : Plain s :=
  ⟨fun hpart => h.1 (hpart.trans hs), fun hpart => h.2 (hpart.trans hs)⟩

/-- The scanner returns the events of the body, for all reads. -/
theorem settles_plain {body : Bytes} (hplain : Plain body) (hfits : Fits body)
    (last : ReadError) :
    Settles scanSSEEvents maxTokenSize last body
      { tokens := splitEvents [] body, err := .read last } ∧
      ∀ event ∈ splitEvents [] body, IsEvent event := by
  generalize hn : body.length = n
  induction n using Nat.strong_induction_on generalizing body with
  | _ n ih =>
    cases hfind : find lfLf body with
    | none =>
      have hfirst : findFirst delims body = none := (findFirst_of_plain hplain).trans hfind
      by_cases hnil : body = []
      · subst hnil
        exact ⟨.nil rfl rfl, nofun⟩
      · have hsplit : splitEvents [] body = [body] := splitEvents_of_find_eq_none hfind hnil
        have hlen : body.length + 2 ≤ maxTokenSize :=
          hfits body (hsplit ▸ mem_singleton.mpr rfl)
        rw [hsplit]
        refine ⟨.last (by omega) (fun p hp => scanSSEEvents_of_none ?_)
          (scanSSEEvents_end hfirst hnil), fun event hevent => ?_⟩
        · exact findFirst_eq_none_of_isPrefix delims_ne_nil hfirst hp
        · rw [mem_singleton.mp hevent]
          exact ⟨hplain, (find_eq_none_iff (by decide)).mp hfind, hlen⟩
    | some p =>
      obtain ⟨tok, rest⟩ := p
      have hsplit : splitEvents [] body = tok :: splitEvents [] rest :=
        splitEvents_of_find hfind
      have hbody : body = tok ++ lfLf ++ rest := find_sound hfind
      have hfirst : findFirst delims body = some (tok, rest) :=
        (findFirst_of_plain hplain).trans hfind
      have hlen : body.length - rest.length = tok.length + 2 := by
        rw [hbody, length_append, length_append]
        exact Nat.add_sub_cancel _ _
      have hfit : tok.length + 2 ≤ maxTokenSize :=
        hfits tok (hsplit ▸ mem_cons_self)
      have hrest : Plain rest := hplain.of_isInfix (hbody ▸ (suffix_append _ rest).isInfix)
      have hfitsRest : Fits rest := fun event hevent =>
        hfits event (hsplit ▸ mem_cons_of_mem tok hevent)
      obtain ⟨hsettles, hevents⟩ := ih rest.length
        (hn ▸ length_lt_of_findFirst delims_ne_nil hfirst) hrest hfitsRest rfl
      rw [hsplit]
      refine ⟨settles_token hfirst (fun p hp hshort => ?_) (hlen ▸ hfit) hsettles,
        fun event hevent => ?_⟩
      · rw [findFirst_of_plain (hplain.of_isInfix hp.isInfix)]
        exact find_eq_none_of_isPrefix hfind hp (hlen ▸ hshort)
      · rcases mem_cons.mp hevent with rfl | hevent
        · refine ⟨hplain.of_isInfix ?_, ?_, hfit⟩
          · exact hbody ▸ ⟨[], lfLf ++ rest, by rw [nil_append, append_assoc]⟩
          · have hprefix : event <+: body := hbody ▸ ⟨lfLf ++ rest, (append_assoc ..).symm⟩
            refine (find_eq_none_iff (by decide)).mp (find_eq_none_of_isPrefix hfind hprefix ?_)
            exact Nat.lt_add_of_pos_right (Nat.zero_lt_two)
        · exact hevents event hevent

/-! ## What is returned -/

/-- A chain without errors that does not look at the metadata. -/
theorem streamEvents_pure {apply : Chain} {rewrite : Bytes → Bytes}
    (happly : ∀ md body, apply md body = (rewrite body, true)) (ending : ℕ → Bytes) (i : ℕ)
    (tokens : List Bytes) :
    streamEvents apply ending i tokens =
      (tokens.flatMap fun event => written (rewrite event)) ++ ending (i + tokens.length) := by
  induction tokens generalizing i with
  | nil => rfl
  | cons event tokens ih =>
    rw [streamEvents, happly]
    dsimp only
    rw [if_pos rfl, ih, flatMap_cons, append_assoc, length_cons, Nat.add_right_comm, Nat.add_assoc]

/-- However the body is cut into reads: the rewritten events, and what the chain makes of an empty
body. -/
theorem drains_patternChain {rules : List PatternRule} {contentType body : Bytes}
    (hplain : Plain body) (hfits : Fits body) {cuts : List Bool}
    (hcuts : cuts.length = body.length) (last : ReadError) {out : Bytes} :
    Drains (patternChain rules contentType) (newRewriteBody body cuts last) out ↔
      out = ((splitEvents [] body).flatMap fun event =>
          written (rewriteEvent rules contentType event)) ++
        written (rewriteEvent rules contentType []) := by
  have happly := patternChain_eq rules contentType
  have hend : ∀ i tokens, streamEnd (patternChain rules contentType)
      { tokens, err := .read last } i = written (rewriteEvent rules contentType []) := by
    intro i tokens
    have hnil : rewrittenEnd (patternChain rules contentType) (.read last) i =
        rewriteEvent rules contentType [] := by
      unfold rewrittenEnd
      rw [happly, happly]
      split_ifs
      · rfl
      · rfl
    rw [streamEnd, hnil, streamEvents, append_nil, written]
    split_ifs
    · rfl
    · rfl
  rw [newRewriteBody_scanner (settles_plain hplain hfits last).1 hcuts, drains_iff,
    RewriteBody.stream, streamEvents_pure happly, ← hend]
  rfl

/-- Nothing is left out behind a rewritten event that does not end with the delimiter already. -/
theorem written_eq {rewritten : Bytes} (h : ¬lfLf <:+ rewritten) :
    written rewritten = if rewritten ≠ [] then rewritten ++ lfLf else [] := by
  rw [written, writeSSEStreamDelim, if_neg (fun hsuffix => h (isSuffixOf_iff_suffix.mp hsuffix))]

/-- Which chains without plugins add nothing to a body: those that make nothing of an empty body,
and no event into a text that ends with the delimiter already. -/
theorem adds_nothing_iff (rules : List PatternRule) (contentType : Bytes) :
    (∀ body cuts last, Plain body → Fits body → cuts.length = body.length →
      ∀ out, Drains (patternChain rules contentType) (newRewriteBody body cuts last) out ↔
        out = rewrittenEvents (rewriteEvent rules contentType) body) ↔
    rewriteEvent rules contentType [] = [] ∧
      ∀ event, IsEvent event → ¬lfLf <:+ rewriteEvent rules contentType event := by
  constructor
  · intro h
    -- the body without events, and then the one that is a single event
    have hend : rewriteEvent rules contentType [] = [] := by
      by_contra hne
      have hfits : Fits [] := fun e he => nomatch he
      have hout := (h [] [] .eof (by decide) hfits rfl _).mp
        ((drains_patternChain (by decide) hfits rfl .eof).mpr rfl)
      exact written_ne_nil hne hout
    refine ⟨hend, fun event hevent hsuffix => ?_⟩
    by_cases hnil : event = []
    · rw [hnil, hend] at hsuffix
      exact absurd (suffix_nil.mp hsuffix) (by decide)
    · have hsplit : splitEvents [] event = [event] :=
        splitEvents_of_find_eq_none ((find_eq_none_iff (by decide)).mpr hevent.single) hnil
      have hfits : Fits event := fun e he => by
        rw [hsplit, mem_singleton] at he
        exact he ▸ hevent.fits
      have hcuts : (event.map fun _ => true).length = event.length := length_map _
      have hout := (h event _ .eof hevent.plain hfits hcuts _).mp
        ((drains_patternChain hevent.plain hfits hcuts .eof).mpr rfl)
      have hne : rewriteEvent rules contentType event ≠ [] := by
        intro hempty
        rw [hempty] at hsuffix
        exact absurd (suffix_nil.mp hsuffix) (by decide)
      rw [rewrittenEvents, hsplit, hend, flatMap_singleton, flatMap_singleton, written,
        if_pos hne, if_pos hne, writeSSEStreamDelim,
        if_pos (isSuffixOf_iff_suffix.mpr hsuffix)] at hout
      have hlen := congrArg List.length hout
      simp only [written, length_append, ne_eq, not_true_eq_false, if_false, length_nil,
        lfLf, length_cons] at hlen
      omega
  · rintro ⟨hend, hdelim⟩ body cuts last hplain hfits hcuts out
    have hevents := (settles_plain hplain hfits last).2
    have hwritten : ((splitEvents [] body).flatMap fun event =>
        written (rewriteEvent rules contentType event)) =
        rewrittenEvents (rewriteEvent rules contentType) body :=
      flatMap_congr fun event hevent => written_eq (hdelim event (hevents event hevent))
    rw [drains_patternChain hplain hfits hcuts last, hwritten, hend]
    exact Eq.congr_right (append_nil _)

/-- Every `a` is replaced by `b`. -/
def replaceA : PatternRule where
  type := bytes "*"
  replace := fun body => body.map fun c => if c = 97 then 98 else c

theorem rewriteEvent_replaceA (event : Bytes) :
    rewriteEvent [replaceA] (bytes "text/event-stream") event = replaceA.replace event := by
  rfl

/-- No line feed comes from another byte. -/
theorem not_lfLf_suffix_replaceA {event : Bytes} (h : ¬lfLf <:+: event) :
    ¬lfLf <:+ replaceA.replace event := by
  rintro ⟨init, hinit⟩
  obtain ⟨l, l', rfl, -, hlast⟩ := map_eq_append_iff.mp hinit.symm
  have hback : ∀ c : UInt8, (if c = 97 then 98 else c) = 10 → c = 10 := by
    intro c hc
    split_ifs at hc
    · exact absurd hc (by decide)
    · exact hc
  obtain ⟨c, rest, rfl, hc, hrest⟩ := map_eq_cons_iff.mp hlast
  obtain ⟨c', rest', rfl, hc', hnil⟩ := map_eq_cons_iff.mp hrest
  rw [hback c hc, hback c' hc', map_eq_nil_iff.mp hnil] at h
  exact h (suffix_append l _).isInfix

theorem adds_nothing_replaceA :
    Drains (patternChain [replaceA] (bytes "text/event-stream"))
      (newRewriteBody (bytes "a\n\n") [false, true, false] .eof) (bytes "b\n\n") := by
  have hadds := (adds_nothing_iff [replaceA] (bytes "text/event-stream")).mpr
    ⟨rfl, fun event hevent => rewriteEvent_replaceA event ▸ not_lfLf_suffix_replaceA hevent.single⟩
  exact (hadds (bytes "a\n\n") [false, true, false] .eof (by decide) (by decide) rfl _).mpr
    (by decide +kernel)

/-- The start of the body is replaced by `x`, for the pattern `^`. -/
def insertX : PatternRule where
  type := bytes "*"
  replace := fun body => 120 :: body

/-- One event comes in and two go out. -/
theorem event_added_at_end :
    Drains (patternChain [insertX] (bytes "text/event-stream"))
        (newRewriteBody (bytes "a\n\n") [false, false, false] .eof) (bytes "xa\n\nx\n\n") ∧
      rewrittenEvents insertX.replace (bytes "a\n\n") = bytes "xa\n\n" :=
  ⟨drains_iff.mpr (by decide +kernel), by decide +kernel⟩

end Sniffer.EventStream
