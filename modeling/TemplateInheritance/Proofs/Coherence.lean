import TemplateInheritance.Proofs.Keys
import TemplateInheritance.Proofs.Shortcuts
import TemplateInheritance.Proofs.Tiers

/-!
# Coherence of a site

Everything that a site keeps, unless it was made from a template whose change is still to be
announced, is what the present store gives: a kept hierarchy is the one that building gives, and a
kept tree is the result of such a hierarchy. An announced run keeps this up, and so a site answers
as if it had no cache.
-/

namespace TemplateInheritance

/-! ### Outcomes of the last stages -/

namespace Resolver

variable {resolver : Resolver} {hooks : Hooks} {cache : Cache} {now begun : Nat}
  {context : Context}

/-- While the clock can show the expiry, finishing a hierarchy gives its result. -/
theorem template_finish {name : String} {h : Hierarchy} {loaded : List String}
    (hclock : (deadline? now cache.resolved.lifetime).isSome) :
    (resolver.finish cache now begun name context h loaded).outcome.map (·.template) =
      (h.resolve resolver.maxSuperDepth).mapError .error := by
  rw [outcome_finish hclock]
  cases h.resolve resolver.maxSuperDepth <;> rfl

/-- While the clock can show the expiries, rebuilding gives what a fresh resolution gives. -/
theorem template_rebuild {t : Template}
    (hhierarchies : (deadline? now cache.hierarchies.lifetime).isSome)
    (hresolved : (deadline? (now + 1) cache.resolved.lifetime).isSome) :
    (resolver.rebuild hooks cache now begun t context).outcome.map (·.template) =
      (resolver.resolveFresh t context).mapError .error := by
  rw [outcome_rebuild hhierarchies hresolved]
  cases hbuild : (Hierarchy.build resolver.loader resolver.evaluate context t).outcome with
  | error e =>
    rw [resolveFresh_of_error hbuild]
    rfl
  | ok h =>
    rw [resolveFresh_of_build hbuild, Except.bind]
    cases h.resolve resolver.maxSuperDepth <;> rfl

end Resolver

/-! ### What the present store gives -/

namespace Resolver

variable {resolver : Resolver} {context : Context} {h : Hierarchy}

/-- The hierarchy is the one that is built in a context for the stored template of its name. -/
def Gives (resolver : Resolver) (context : Context) (h : Hierarchy) : Prop :=
  (∃ t, resolver.loader.find? h.leaf.name = some t ∧ t.template = h.leaf) ∧
    (Hierarchy.build resolver.loader resolver.evaluate context h.leaf).outcome = .ok h

theorem gives_of_build {t : SharedTemplate} (hstored : resolver.loader.find? t.name = some t)
    (hbuild : (Hierarchy.build resolver.loader resolver.evaluate context t.template).outcome =
      .ok h) : resolver.Gives context h := by
  obtain ⟨hleaf, -⟩ := (Hierarchy.build_eq_ok_iff _ _).mp hbuild
  refine ⟨⟨t, ?_, hleaf.symm⟩, ?_⟩
  · rw [hleaf]
    exact hstored
  · rw [hleaf]
    exact hbuild

/-- The hierarchy of a stored template's name begins with that template. -/
theorem Gives.leaf_eq (hgives : resolver.Gives context h) {t : SharedTemplate}
    (hstored : resolver.loader.find? t.name = some t) (hname : h.leaf.name = t.name) :
    h.leaf = t.template := by
  obtain ⟨⟨found, hfound, hleaf⟩, -⟩ := hgives
  rw [hname, hstored] at hfound
  rw [← hleaf, Option.some.inj hfound]

/-- Where no parent depends on the context, neither does the hierarchy. -/
theorem Gives.of_static (hgives : resolver.Gives context h)
    (hstable : resolver.evaluate.LiteralStable) (hstatic : h.isDynamic = false)
    (context' : Context) : resolver.Gives context' h :=
  ⟨hgives.1, Hierarchy.build_of_static hstable hstatic hgives.2 context'⟩

/-- A change of the store that spares the names of a hierarchy leaves it as it is. -/
theorem Gives.of_find?_eq (hgives : resolver.Gives context h) {loader : Loader}
    (haliases : loader.aliases = resolver.loader.aliases)
    (hfailing : loader.failing = resolver.loader.failing)
    (hfind : ∀ name ∈ h.names, loader.find? name = resolver.loader.find? name) :
    Gives { resolver with loader } context h := by
  obtain ⟨⟨t, hfound, hleaf⟩, hbuild⟩ := hgives
  refine ⟨⟨t, ?_, hleaf⟩, Hierarchy.build_of_find?_eq haliases hfailing hfind hbuild⟩
  exact (hfind h.leaf.name List.mem_cons_self).trans hfound

/-- The result of a hierarchy that the store gives is the fresh result of its template. -/
theorem Gives.resolve_eq (hgives : resolver.Gives context h) :
    h.resolve resolver.maxSuperDepth = resolver.resolveFresh h.leaf context :=
  (resolveFresh_of_build hgives.2).symm

end Resolver

/-! ### Coherent entries -/

namespace Site

/-- A kept hierarchy without stale names is static, stands under its own name, and is given by the
store. -/
def CoherentHierarchy (resolver : Resolver) (stale : List String) (key : String) (h : Hierarchy) :
    Prop :=
  (∀ name ∈ stale, name ∉ h.names) →
    h.isDynamic = false ∧ key = h.leaf.name ∧ ∃ context, resolver.Gives context h

/-- A kept tree without stale names is the result of a hierarchy that the store gives in one of the
contexts, and stands under its name and digests. -/
def CoherentTree (resolver : Resolver) (stale : List String) (contexts : List Context)
    (key : String) (entry : ResolvedEntry) : Prop :=
  (∀ name ∈ stale, name ∉ entry.chain) →
    ∃ h : Hierarchy, entry.chain = h.names ∧
      h.resolve resolver.maxSuperDepth = .ok entry.tree.template ∧
      ∃ context ∈ contexts, key = resolvedKey h.leaf.name (h.keptDigest context) ∧
        entry.fullDigest = h.keptFullDigest context ∧ resolver.Gives context h

/-- All entries are coherent, and the clock can show every expiry up to a last reading. -/
structure Coherent (site : Site) (stale : List String) (contexts : List Context) (last : Nat) :
    Prop where
  entries : site.cache.Every (CoherentHierarchy site.resolver stale)
    (CoherentTree site.resolver stale contexts)
  hierarchyClock : (deadline? last site.cache.hierarchies.lifetime).isSome
  resolvedClock : (deadline? last site.cache.resolved.lifetime).isSome

variable {site : Site} {stale : List String} {contexts : List Context} {last : Nat}

/-! ### Answers of a coherent site -/

/-- Without stale names, a resolution over coherent entries gives what a fresh one gives. -/
theorem Coherent.outcome_eq (hsite : site.Coherent [] contexts last)
    (hstable : site.resolver.evaluate.LiteralStable)
    (hfull : ∀ c ∈ contexts, ∀ c' ∈ contexts, c.fullDigest = c'.fullDigest → c = c')
    (hlast : site.clock + Resolver.readings ≤ last) {t : SharedTemplate}
    (hstored : site.stored? t.name = some t) {context : Context} (hcontext : context ∈ contexts)
    (hooks : Hooks) :
    (site.resolver.resolveWith hooks site.cache site.clock t context).outcome.map (·.template) =
      (site.resolver.resolveFresh t.template context).mapError .error := by
  -- whatever hierarchy an answer comes from, it is the one that building gives in this context
  have hsame {h : Hierarchy} (hname : h.leaf.name = t.name)
      (hgives : site.resolver.Gives context h) :
      site.resolver.resolveFresh t.template context = h.resolve site.resolver.maxSuperDepth := by
    rw [← hgives.leaf_eq hstored hname, hgives.resolve_eq]
  have hentries := hsite.entries
  have hclock {now lifetime : Nat} (hnow : now ≤ site.clock + 4)
      (hexpiry : (deadline? last lifetime).isSome) : (deadline? now lifetime).isSome := by
    have : now ≤ last := by
      simp only [Resolver.readings] at hlast
      omega
    exact Table.isSome_deadline?_of_le this hexpiry
  rcases site.resolver.route_resolveWith hooks site.cache site.clock t context with
    ⟨hplain, hresult⟩ | ⟨-, entry, hmem, hkey, -, after, -, hresult⟩ |
    ⟨entry, hmem, hkey, hdigest, after, -, hresult⟩ |
    ⟨-, entry, hmem, hkey, before, hbefore, hresult⟩ | ⟨before, hbefore, hresult⟩
  · rw [hresult, Resolver.resolveFresh_of_plain hplain]
    rfl
  · obtain ⟨h, -, htree, made, -, hkey', -, hgives⟩ :=
      hentries.resolved entry hmem (List.forall_mem_nil _)
    obtain ⟨hname, hfixed⟩ := resolvedKey_inj (h.colon_notMem_keptDigest made)
      colon_notMem_staticDigest (hkey'.symm.trans hkey)
    have hstatic := Hierarchy.keptDigest_eq_static_iff.mp hfixed
    rw [hresult, hsame hname (hgives.of_static hstable hstatic context), htree]
    rfl
  · obtain ⟨h, -, htree, made, hmade, hkey', hdigest', hgives⟩ :=
      hentries.resolved entry hmem (List.forall_mem_nil _)
    obtain ⟨hname, hshort⟩ := resolvedKey_inj (h.colon_notMem_keptDigest made)
      context.colon_notMem_digest (hkey'.symm.trans hkey)
    have hdynamic := (Hierarchy.keptDigest_eq_digest_iff.mp hshort).1
    rw [Hierarchy.keptFullDigest_of_dynamic hdynamic, hdigest] at hdigest'
    obtain rfl := hfull context hcontext made hmade hdigest'
    rw [hresult, hsame hname hgives, htree]
    rfl
  · obtain ⟨hstatic, hname, made, hgives⟩ := hentries.hierarchies entry hmem (List.forall_mem_nil _)
    rw [hresult, hsame (hname.symm.trans hkey) (hgives.of_static hstable hstatic context)]
    apply Resolver.template_finish
    rw [hbefore.resolved.lifetime]
    exact hclock (Nat.le_refl _) hsite.resolvedClock
  · rw [hresult]
    apply Resolver.template_rebuild
    · rw [hbefore.hierarchies.lifetime]
      exact hclock (by omega) hsite.hierarchyClock
    · rw [hbefore.resolved.lifetime]
      exact hclock (Nat.le_refl _) hsite.resolvedClock

/-! ### Events -/

/-- A resolution keeps the entries coherent. -/
theorem Coherent.resolve (hsite : site.Coherent [] contexts last)
    (hstable : site.resolver.evaluate.LiteralStable) {t : SharedTemplate}
    (hstored : site.stored? t.name = some t) {context : Context} (hcontext : context ∈ contexts)
    (hooks : Hooks) (clock : Nat) :
    Coherent
      ⟨site.resolver, (site.resolver.resolveWith hooks site.cache site.clock t context).cache,
        clock⟩ [] contexts last := by
  have hlifetimes :=
    site.resolver.lifetimes_resolveWith hooks site.cache site.clock t context
  have hname {h : Hierarchy} (hbuild : (Hierarchy.build site.resolver.loader site.resolver.evaluate
      context t.template).outcome = .ok h) : t.name = h.leaf.name := by
    rw [((Hierarchy.build_eq_ok_iff _ _).mp hbuild).1]
    rfl
  refine ⟨Resolver.every_resolveWith hsite.entries ?_ ?_, ?_, ?_⟩
  · intro h hbuild hstatic _
    exact ⟨hstatic, hname hbuild, context, Resolver.gives_of_build hstored hbuild⟩
  · intro h tree stamp hsource htree _
    have hgives : t.name = h.leaf.name ∧ site.resolver.Gives context h := by
      rcases hsource with ⟨-, hkept⟩ | hbuild
      · obtain ⟨hstatic, hkey, made, hgives⟩ := hkept (List.forall_mem_nil _)
        exact ⟨hkey, hgives.of_static hstable hstatic context⟩
      · exact ⟨hname hbuild, Resolver.gives_of_build hstored hbuild⟩
    refine ⟨h, rfl, htree, context, hcontext, ?_, rfl, hgives.2⟩
    rw [hgives.1]
  · rw [hlifetimes.1]
    exact hsite.hierarchyClock
  · rw [hlifetimes.2]
    exact hsite.resolvedClock

/-- Losing entries keeps the rest coherent. -/
theorem Coherent.of_keptFrom (hsite : site.Coherent stale contexts last) {cache : Cache}
    (hkept : cache.KeptFrom site.cache) (clock : Nat) :
    Coherent ⟨site.resolver, cache, clock⟩ stale contexts last := by
  refine ⟨hsite.entries.of_keptFrom hkept, ?_, ?_⟩
  · rw [hkept.hierarchies.lifetime]
    exact hsite.hierarchyClock
  · rw [hkept.resolved.lifetime]
    exact hsite.resolvedClock

/-- What outlasts the invalidation of a name has nothing to do with its change. -/
theorem Coherent.invalidate (hsite : site.Coherent stale contexts last) (name : String) :
    Coherent { site with cache := site.cache.invalidate name } (stale.filter (· != name)) contexts
      last := by
  have hinvalidated :=
    hsite.of_keptFrom (site.cache.keptFrom_maintain (.invalidate name)) site.clock
  refine ⟨?_, hinvalidated.hierarchyClock, hinvalidated.resolvedClock⟩
  have hfresh {names : List String} (hname : name ∉ names)
      (hothers : ∀ other ∈ stale.filter (· != name), other ∉ names) :
      ∀ other ∈ stale, other ∉ names := by
    intro other hother
    by_cases heq : other = name
    · rw [heq]
      exact hname
    · exact hothers other (List.mem_filter.mpr ⟨hother, by simpa using heq⟩)
  refine (hinvalidated.entries.and (site.cache.every_invalidate name)).imp ?_ ?_
  · intro key h hkept hothers
    exact hkept.1 (hfresh hkept.2 hothers)
  · intro key entry hkept hothers
    exact hkept.1 (hfresh hkept.2 hothers)

/-- A change of one name in the store leaves everything else coherent. -/
theorem Coherent.changeStore (hsite : site.Coherent stale contexts last) {name : String}
    (change : Loader → Loader)
    (haliases : (change site.resolver.loader).aliases = site.resolver.loader.aliases)
    (hfailing : (change site.resolver.loader).failing = site.resolver.loader.failing)
    (hfind : ∀ other, other ≠ name →
      (change site.resolver.loader).find? other = site.resolver.loader.find? other)
    (clock : Nat) :
    Coherent { site.changeStore change with clock } (name :: stale) contexts last := by
  have hgives {names : List String} {context : Context} {h : Hierarchy} (hnames : names = h.names)
      (hfresh : ∀ other ∈ name :: stale, other ∉ names) (hold : site.resolver.Gives context h) :
      (site.changeStore change).resolver.Gives context h := by
    refine hold.of_find?_eq haliases hfailing fun other hother ↦ hfind other ?_
    rintro rfl
    exact hfresh other List.mem_cons_self (hnames ▸ hother)
  refine ⟨hsite.entries.imp ?_ ?_, hsite.hierarchyClock, hsite.resolvedClock⟩
  · intro key h hkept hfresh
    obtain ⟨hstatic, hkey, context, hold⟩ := hkept fun other hother ↦ hfresh other (.tail _ hother)
    exact ⟨hstatic, hkey, context, hgives rfl hfresh hold⟩
  · intro key entry hkept hfresh
    obtain ⟨h, hchain, htree, context, hcontext, hkey, hfull, hold⟩ :=
      hkept fun other hother ↦ hfresh other (.tail _ hother)
    exact ⟨h, hchain, htree, context, hcontext, hkey, hfull, hgives hchain hfresh hold⟩

/-- An event keeps a site coherent; a resolution waits until every change is announced. -/
theorem Coherent.step (hsite : site.Coherent stale contexts last)
    (hstable : site.resolver.evaluate.LiteralStable) {event : Event}
    (hannounces : announces stale [event] = true)
    (hcontexts : ∀ context ∈ contextsOf [event], context ∈ contexts) :
    (site.step event).Coherent (event.unannounced stale) contexts last := by
  cases event with
  | resolve name context hooks =>
    obtain rfl : stale = [] := by simpa [announces] using hannounces
    have hcontext : context ∈ contexts := hcontexts context (by simp [contextsOf])
    rw [step]
    split
    · exact hsite
    · next t hstored =>
      have hname : t.name = name := Loader.name_of_find? hstored
      rw [← hname] at hstored
      exact hsite.resolve hstable hstored hcontext hooks (site.clock + Resolver.readings)
  | maintain upkeep =>
    cases upkeep with
    | invalidate name => exact hsite.invalidate name
    | clear => exact ⟨site.cache.every_clear, hsite.hierarchyClock, hsite.resolvedClock⟩
  | sweep => exact hsite.of_keptFrom (site.cache.keptFrom_sweepExpired site.clock) site.clock
  | wait readings => exact ⟨hsite.entries, hsite.hierarchyClock, hsite.resolvedClock⟩
  | put t =>
    refine hsite.changeStore (·.insert ⟨t, site.clock⟩) rfl rfl ?_ (site.clock + 1)
    intro other hother
    rw [Loader.find?_insert]
    exact if_neg hother
  | remove name =>
    refine hsite.changeStore (·.remove name) rfl rfl ?_ site.clock
    intro other hother
    rw [Loader.find?_remove]
    exact if_neg hother

/-- No event changes how targets are evaluated. -/
theorem evaluate_step (site : Site) (event : Event) :
    (site.step event).resolver.evaluate = site.resolver.evaluate := by
  cases event with
  | resolve name context hooks =>
    rw [step]
    split <;> rfl
  | _ => rfl

theorem clock_le_step (site : Site) (event : Event) : site.clock ≤ (site.step event).clock := by
  cases event with
  | resolve name context hooks =>
    rw [step]
    split
    · exact Nat.le_refl _
    · exact Nat.le_add_right _ _
  | wait readings => exact Nat.le_add_right _ _
  | put t => exact Nat.le_add_right _ _
  | maintain | sweep | remove => exact Nat.le_refl _

theorem clock_le_run (site : Site) (events : List Event) :
    site.clock ≤ (site.run events).clock := by
  induction events generalizing site with
  | nil => exact Nat.le_refl _
  | cons event rest ih => exact Nat.le_trans (site.clock_le_step event) (ih (site.step event))

/-! ### Runs -/

private theorem Coherent.reply?_eq (hsite : site.Coherent stale contexts last)
    (hstable : site.resolver.evaluate.LiteralStable)
    (hfull : ∀ c ∈ contexts, ∀ c' ∈ contexts, c.fullDigest = c'.fullDigest → c = c')
    {event : Event} (hannounces : announces stale [event] = true)
    (hcontexts : ∀ context ∈ contextsOf [event], context ∈ contexts)
    (hlast : (site.step event).clock ≤ last) :
    site.reply? event = site.freshReply? event := by
  cases event with
  | resolve name context hooks =>
    obtain rfl : stale = [] := by simpa [announces] using hannounces
    have hcontext : context ∈ contexts := hcontexts context (by simp [contextsOf])
    rw [Site.step] at hlast
    rw [reply?, freshReply?]
    cases hstored : site.stored? name with
    | none => rfl
    | some t =>
      rw [hstored] at hlast
      have hname : t.name = name := Loader.name_of_find? hstored
      rw [← hname] at hstored
      exact congrArg some (hsite.outcome_eq hstable hfull hlast hstored hcontext hooks)
  | _ => rfl

private theorem contextsOf_cons (event : Event) (rest : List Event) :
    contextsOf (event :: rest) = contextsOf [event] ++ contextsOf rest := by
  rw [← List.singleton_append, contextsOf, List.filterMap_append]
  rfl

/-- From a coherent site on, an announced run is answered as without a cache. -/
theorem Coherent.answers_eq (hsite : site.Coherent stale contexts last)
    (hstable : site.resolver.evaluate.LiteralStable)
    (hfull : ∀ c ∈ contexts, ∀ c' ∈ contexts, c.fullDigest = c'.fullDigest → c = c')
    {events : List Event} (hannounces : announces stale events = true)
    (hcontexts : ∀ context ∈ contextsOf events, context ∈ contexts)
    (hlast : (site.run events).clock ≤ last) :
    site.answers reply? events = site.answers freshReply? events := by
  induction events generalizing site stale with
  | nil => rfl
  | cons event rest ih =>
    have hsplit : announces stale [event] = true ∧
        announces (event.unannounced stale) rest = true := by
      simpa [announces] using hannounces
    rw [contextsOf_cons, List.forall_mem_append] at hcontexts
    obtain ⟨hhere, hlater⟩ := hcontexts
    have hclock : (site.step event).clock ≤ last :=
      Nat.le_trans ((site.step event).clock_le_run rest) hlast
    have hstable' : (site.step event).resolver.evaluate.LiteralStable := by
      rw [evaluate_step]
      exact hstable
    rw [answers, answers, hsite.reply?_eq hstable hfull hsplit.1 hhere hclock]
    rw [ih (hsite.step hstable hsplit.1 hhere) hstable' hsplit.2 hlater hlast]

/-- A run from an empty cache in which every change of the store is announced before the next
resolution is answered as without a cache: with the same trees and the same errors. The lifetimes
are not to overflow the clock, and the full digests of the contexts at hand are to tell them
apart. -/
theorem answers_eq_fresh (resolver : Resolver) (settings : CacheSettings) (clock : Nat)
    (events : List Event) (hstable : resolver.evaluate.LiteralStable)
    (hannounces : announces [] events = true)
    (hhierarchies : (expiry? ((new resolver settings clock).run events).clock
      settings.hierarchyLifetime).isSome)
    (hresolved : (expiry? ((new resolver settings clock).run events).clock
      settings.resolvedLifetime).isSome)
    (hfull : ∀ c ∈ contextsOf events, ∀ c' ∈ contextsOf events,
      c.fullDigest = c'.fullDigest → c = c') :
    (new resolver settings clock).answers reply? events =
      (new resolver settings clock).answers freshReply? events := by
  have hsite : (new resolver settings clock).Coherent [] (contextsOf events)
      ((new resolver settings clock).run events).clock :=
    ⟨Cache.every_new settings clock, hhierarchies, hresolved⟩
  exact hsite.answers_eq hstable hfull hannounces (fun _ hmem ↦ hmem) (Nat.le_refl _)

end Site

/-! ### A page with a choice of layouts -/

namespace SwitchedPage

/-- The context names the layout. -/
def page : Template :=
  ⟨"page", [.leaf (.extendsFrom (.var "layout") none), .named "title" [.text "page"]]⟩

def wide : Template := ⟨"wide", [.text "wide ", .named "title" []]⟩

def narrow : Template := ⟨"narrow", [.text "narrow ", .named "title" []]⟩

def resolver : Resolver :=
  ⟨{ Loader.empty with stored := [⟨page, 1⟩, ⟨wide, 2⟩, ⟨narrow, 3⟩] }, .standard, 5⟩

/-- The context that asks for a layout. -/
def layout (name : String) : Context := .ofList [("layout", .string name)]

/-- Both layouts are used, the wide one is changed and the narrow one removed. -/
def events : List Site.Event :=
  [.resolve "page" (layout "wide") .none, .resolve "page" (layout "narrow") .none,
    .put ⟨"wide", [.text "wider ", .named "title" []]⟩, .maintain (.invalidate "wide"),
    .resolve "page" (layout "wide") .none, .remove "narrow", .wait 7,
    .maintain (.invalidate "narrow"), .resolve "page" (layout "narrow") .none]

/-- Each answer is that of the layout as it is stored at the time. -/
theorem answers_events :
    resolver.evaluate.LiteralStable ∧ Site.announces [] events = true ∧
      (∀ c ∈ Site.contextsOf events, ∀ c' ∈ Site.contextsOf events,
        c.fullDigest = c'.fullDigest → c = c') ∧
      (Site.new resolver {} 0).answers Site.reply? events =
        [some (.ok ⟨"page", [.text "wide ", .named "title" [.text "page"]]⟩),
          some (.ok ⟨"page", [.text "narrow ", .named "title" [.text "page"]]⟩), none, none,
          some (.ok ⟨"page", [.text "wider ", .named "title" [.text "page"]]⟩), none, none, none,
          some (.error (.error (.parentLoad "narrow" "page" (.notFound "narrow"))))] := by
  have hstable : resolver.evaluate.LiteralStable := Evaluator.literalStable_standard
  have hannounces : Site.announces [] events = true := by decide
  have hfull : ∀ c ∈ Site.contextsOf events, ∀ c' ∈ Site.contextsOf events,
      c.fullDigest = c'.fullDigest → c = c' := by decide +kernel
  refine ⟨hstable, hannounces, hfull, ?_⟩
  rw [Site.answers_eq_fresh resolver {} 0 events hstable hannounces (by decide +kernel)
    (by decide +kernel) hfull]
  decide +kernel

end SwitchedPage

end TemplateInheritance
