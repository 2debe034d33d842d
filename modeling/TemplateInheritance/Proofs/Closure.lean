import TemplateInheritance.Proofs.Keys
import TemplateInheritance.Proofs.Placement
import TemplateInheritance.Proofs.Shortcuts
import TemplateInheritance.Proofs.SuperCalls
import TemplateInheritance.Proofs.Tiers

/-!
# Resolved trees are closed

A tree that comes out of a substitution has no call left, wherever its parts were taken from: the
merged tree, the body of some level or the memory. It declares no parent either, as its top level
is that of the root. So a resolved tree has no directives, a cache keeps no other trees, and to
resolve an answer again is to give it back.
-/

namespace TemplateInheritance

/-! ### What a substitution gives -/

/-- From a valid memory the substitution leaves a valid one, and what it gives, if it does not
fail, has the property. -/
def Ensures {α : Type} (valid : Memo → Prop) (post : α → Prop) (x : Substitution α) : Prop :=
  ∀ memo, valid memo → valid (x.run memo).2 ∧ ∀ a, (x.run memo).1 = .ok a → post a

section Ensures

variable {α β : Type} {valid : Memo → Prop} {post : α → Prop}

theorem ensures_pure {a : α} (ha : post a) : Ensures valid post (pure a) := by
  intro memo hmemo
  refine ⟨hmemo, fun b hb ↦ ?_⟩
  obtain rfl : a = b := Except.ok.inj hb
  exact ha

theorem ensures_throw (e : ResolveError) : Ensures valid post (throw e : Substitution α) :=
  fun _ hmemo ↦ ⟨hmemo, nofun⟩

theorem ensures_bind {x : Substitution α} {next : α → Substitution β} {post' : β → Prop}
    (hx : Ensures valid post x) (hnext : ∀ a, post a → Ensures valid post' (next a)) :
    Ensures valid post' (x >>= next) := by
  intro memo hmemo
  obtain ⟨hmemo', hpost⟩ := hx memo hmemo
  rw [run_bind]
  generalize x.run memo = ran at hmemo' hpost
  obtain ⟨result, memo'⟩ := ran
  cases result with
  | error e => exact ⟨hmemo', nofun⟩
  | ok a => exact hnext a (hpost a rfl) memo' hmemo'

/-- Every substitution ensures nothing. -/
theorem ensures_true (x : Substitution α) : Ensures (fun _ ↦ True) (fun _ ↦ True) x :=
  fun _ _ ↦ ⟨trivial, fun _ _ ↦ trivial⟩

end Ensures

/-! ### Filling in leaves no call -/

/-- From a valid memory the substitution leaves a valid one, and gives a node without calls. -/
abbrev GivesPlain (valid : Memo → Prop) (x : Substitution (Node Unit)) : Prop :=
  Ensures valid (fun node ↦ Node.hasSuperCall node = false) x

section Fill

variable {Mark : Type} {valid : Memo → Prop} {call : String → Mark → Substitution (Node Unit)}

private theorem Leaf.ensures_fill (hcall : ∀ name mark, GivesPlain valid (call name mark))
    (around : Option (String × Mark)) (leaf : Leaf) : GivesPlain valid (leaf.fill call around) := by
  unfold Leaf.fill
  cases hsuper : leaf.superCall? with
  | none =>
    have hplain : leaf.isSuperCall = false := by
      rw [← isSome_superCall?, hsuper]
      rfl
    exact ensures_pure hplain
  | some location =>
    cases around with
    | none => exact ensures_throw _
    | some block => exact hcall block.1 block.2

mutual

private theorem Node.ensures_fill (hcall : ∀ name mark, GivesPlain valid (call name mark))
    (around : Option (String × Mark)) (node : Node Mark) :
    GivesPlain valid (Node.fill call around node) := by
  cases node with
  | leaf leaf => exact Leaf.ensures_fill hcall around leaf
  | block mark name body =>
    rw [Node.fill]
    refine ensures_bind (Nodes.ensures_fill hcall _ body) fun filled hbody ↦ ?_
    exact ensures_pure hbody
  | conditional condition body arms otherwise =>
    rw [Node.fill]
    refine ensures_bind (Nodes.ensures_fill hcall around body) fun filled hbody ↦ ?_
    refine ensures_bind (Arms.ensures_fill hcall around arms) fun filledArms harms ↦ ?_
    refine ensures_bind (Nodes.ensures_fill hcall around otherwise) fun filledElse helse ↦ ?_
    apply ensures_pure
    simp [Node.hasSuperCall, hbody, harms, helse]
  | loop targets iterable body otherwise =>
    rw [Node.fill]
    refine ensures_bind (Nodes.ensures_fill hcall around body) fun filled hbody ↦ ?_
    refine ensures_bind (Nodes.ensures_fill hcall around otherwise) fun filledElse helse ↦ ?_
    apply ensures_pure
    simp [Node.hasSuperCall, hbody, helse]
  | group body =>
    rw [Node.fill]
    refine ensures_bind (Nodes.ensures_fill hcall around body) fun filled hbody ↦ ?_
    exact ensures_pure hbody
termination_by structural node

/-- Where calls become nodes without calls, a filled tree has none. -/
theorem Nodes.ensures_fill (hcall : ∀ name mark, GivesPlain valid (call name mark))
    (around : Option (String × Mark)) (nodes : Nodes Mark) :
    Ensures valid (fun filled ↦ Nodes.hasSuperCall filled = false)
      (Nodes.fill call around nodes) := by
  cases nodes with
  | nil => exact ensures_pure rfl
  | cons node rest =>
    rw [Nodes.fill]
    refine ensures_bind (Node.ensures_fill hcall around node) fun filled hnode ↦ ?_
    refine ensures_bind (Nodes.ensures_fill hcall around rest) fun filledRest hrest ↦ ?_
    apply ensures_pure
    simp [Nodes.hasSuperCall, hnode, hrest]
termination_by structural nodes

private theorem Arms.ensures_fill (hcall : ∀ name mark, GivesPlain valid (call name mark))
    (around : Option (String × Mark)) (arms : Arms Mark) :
    Ensures valid (fun filled ↦ Arms.hasSuperCall filled = false) (Arms.fill call around arms) := by
  match arms with
  | [] => exact ensures_pure rfl
  | (condition, body) :: rest =>
    rw [Arms.fill]
    refine ensures_bind (Nodes.ensures_fill hcall around body) fun filled hbody ↦ ?_
    refine ensures_bind (Arms.ensures_fill hcall around rest) fun filledRest hrest ↦ ?_
    apply ensures_pure
    simp [Arms.hasSuperCall, hbody, hrest]
termination_by structural arms

end

/-- At the top level, a call is stray and ends the walk, so that declarations stay what they are. -/
private theorem Node.ensures_isExtends (call : String → Mark → Substitution (Node Unit))
    (node : Node Mark) :
    Ensures (fun _ ↦ True) (fun filled ↦ filled.isExtends = node.isExtends)
      (Node.fill call none node) := by
  cases node with
  | leaf leaf =>
    rw [Node.fill, Leaf.fill]
    cases leaf.superCall? with
    | none =>
      apply ensures_pure
      cases leaf <;> rfl
    | some location => exact ensures_throw _
  | block mark name body =>
    exact ensures_bind (ensures_true _) fun _ _ ↦ ensures_pure rfl
  | conditional condition body arms otherwise =>
    refine ensures_bind (ensures_true _) fun _ _ ↦ ?_
    refine ensures_bind (ensures_true _) fun _ _ ↦ ?_
    exact ensures_bind (ensures_true _) fun _ _ ↦ ensures_pure rfl
  | loop targets iterable body otherwise =>
    refine ensures_bind (ensures_true _) fun _ _ ↦ ?_
    exact ensures_bind (ensures_true _) fun _ _ ↦ ensures_pure rfl
  | group body => exact ensures_bind (ensures_true _) fun _ _ ↦ ensures_pure rfl

/-- Filling in keeps the declarations at the top level. -/
theorem Nodes.ensures_isExtends (call : String → Mark → Substitution (Node Unit))
    (nodes : Nodes Mark) :
    Ensures (fun _ ↦ True)
      (fun filled ↦ filled.any Node.isExtends = nodes.any Node.isExtends)
      (Nodes.fill call none nodes) := by
  induction nodes with
  | nil => exact ensures_pure rfl
  | cons node rest ih =>
    rw [Nodes.fill]
    refine ensures_bind (node.ensures_isExtends call) fun filled hnode ↦ ?_
    refine ensures_bind ih fun filledRest hrest ↦ ?_
    apply ensures_pure
    rw [List.any_cons, List.any_cons, hnode, hrest]

end Fill

/-! ### Declarations at the top level -/

theorem Template.isSome_declaration? (t : Template) :
    t.declaration?.isSome = t.nodes.any Node.isExtends := by
  rw [declaration?]
  induction t.nodes with
  | nil => rfl
  | cons node rest ih =>
    rw [List.findSome?_cons, List.any_cons, ← ih, Node.isExtends_eq_isSome]
    cases node.declaration? <;> rfl

private theorem any_isExtends_mark (level : Nat) (nodes : Nodes Unit) :
    (Nodes.mark level nodes).any Node.isExtends = nodes.any Node.isExtends := by
  rw [Nodes.mark_eq_map, List.any_map]
  exact congrArg nodes.any (funext fun node ↦ Node.isExtends_mark level node)

private theorem any_isExtends_overlay (own : SortedMap (Nodes Unit)) (level : Nat)
    (nodes : Nodes Nat) :
    (Nodes.overlayMarked own level nodes).any Node.isExtends = nodes.any Node.isExtends := by
  induction nodes with
  | nil => rfl
  | cons node rest ih =>
    rw [Nodes.overlayMarked, List.any_cons, List.any_cons, Node.isExtends_overlay, ih]

private theorem isExtends_layeredMarked (level : Nat) (t : Template) (ancestors : List Template) :
    (layeredMarked level t ancestors).any Node.isExtends =
      (ancestors.getLast?.getD t).nodes.any Node.isExtends := by
  induction ancestors generalizing level t with
  | nil => exact any_isExtends_mark level t.nodes
  | cons parent above ih =>
    rw [layeredMarked, any_isExtends_overlay, ih, List.getLast?_cons, Option.getD_some]

private theorem any_hoist {Mark : Type} (imports nodes : Nodes Mark) (p : Node Mark → Bool) :
    (hoist imports nodes).any p = (imports.any p || nodes.any p) := by
  rw [Bool.eq_iff_iff]
  simp [List.any_eq_true, mem_hoist_iff, or_and_right, exists_or]

/-! ### Resolving leaves no directive -/

/-- Nothing in the memory has a call in it. -/
def Memo.Closed (memo : Memo) : Prop :=
  ∀ key known, memo.lookup key = some known → Node.hasSuperCall known = false

theorem Memo.closed_nil : Memo.Closed [] := nofun

theorem Memo.Closed.cons {memo : Memo} (hmemo : Memo.Closed memo) (key : String × Nat)
    {found : Node Unit} (hfound : Node.hasSuperCall found = false) :
    Memo.Closed ((key, found) :: memo) := by
  intro other known hlookup
  rw [List.lookup_cons] at hlookup
  split at hlookup
  · rw [← Option.some.inj hlookup]
    exact hfound
  · exact hmemo other known hlookup

private theorem hasSuperCall_collapse {body : Nodes Unit}
    (hbody : Nodes.hasSuperCall body = false) : Node.hasSuperCall (collapse body) = false := by
  unfold collapse
  split
  · rfl
  · simpa [Nodes.hasSuperCall] using hbody
  · exact hbody

namespace Hierarchy

/-- No call is left in what a call becomes. -/
theorem ensures_substitute (h : Hierarchy) (limit : Nat) (name : String) (level : Nat) :
    GivesPlain Memo.Closed (h.substitute limit name level) := by
  intro memo hmemo
  rw [substitute]
  by_cases hdeep : limit < h.definersBelow name level
  · rw [if_pos hdeep]
    exact ensures_throw _ memo hmemo
  rw [if_neg hdeep, run_get_bind]
  split
  · next known hknown =>
    exact ⟨hmemo, fun found hfound ↦ Except.ok.inj hfound ▸ hmemo _ known hknown⟩
  split
  · exact ⟨hmemo, fun found hfound ↦ Except.ok.inj hfound ▸ rfl⟩
  · next above hnext =>
    have := definerAbove?_bounds hnext
    -- the calls in the new body go on from `above`, which is nearer to the root
    have hbody : Ensures Memo.Closed (fun body ↦ Nodes.hasSuperCall body = false)
        (Nodes.fill (fun inner (_ : Unit) ↦ h.substitute limit inner above) (some (name, ()))
          (h.bodyAt above name)) :=
      Nodes.ensures_fill (fun inner _ ↦ ensures_substitute h limit inner above) _ _
    refine ensures_bind hbody (fun body hplain ↦ ?_) memo hmemo
    intro memo' hmemo'
    have hfound := hasSuperCall_collapse hplain
    exact ⟨hmemo'.cons _ hfound, fun found heq ↦ Except.ok.inj heq ▸ hfound⟩
termination_by h.length - level

/-- A tree that comes out of resolving has no call left and the declarations that it had. -/
theorem closed_of_resolveSuper {h : Hierarchy} {limit : Nat} {name : String} {tree : Nodes Nat}
    {resolved : Template} (hok : ((h.resolveSuper limit name tree).run []).1 = .ok resolved) :
    resolved.name = name ∧ Nodes.hasSuperCall resolved.nodes = false ∧
      resolved.nodes.any Node.isExtends = tree.any Node.isExtends := by
  unfold resolveSuper at hok
  split at hok
  · cases hok
  · rw [run_bind] at hok
    obtain ⟨-, hcalls⟩ := Nodes.ensures_fill (h.ensures_substitute limit) none tree []
      Memo.closed_nil
    obtain ⟨-, hextends⟩ := Nodes.ensures_isExtends (h.substitute limit) tree [] trivial
    generalize (Nodes.fill (h.substitute limit) none tree).run [] = ran at hok hcalls hextends
    obtain ⟨result, memo⟩ := ran
    cases result with
    | error e => cases hok
    | ok nodes =>
      obtain rfl : ⟨name, nodes⟩ = resolved := Except.ok.inj hok
      exact ⟨rfl, hcalls nodes rfl, hextends nodes rfl⟩

/-- The merged tree declares a parent at its top level only where the root does. -/
theorem isExtends_merged (h : Hierarchy) :
    h.merged.any Node.isExtends = h.root.nodes.any Node.isExtends := by
  have himports : (Nodes.mark 0 h.imports).any Node.isExtends = false := by
    refine List.any_eq_false.mpr fun node hmem ↦ ?_
    obtain ⟨leaf, rfl, himport⟩ :=
      Node.exists_leaf_of_isImport (h.isImport_of_mem_mark_imports hmem)
    cases leaf with
    | importAs | importNames => exact Bool.false_ne_true
    | _ => cases himport
  rw [merged_eq_hoist, any_hoist, himports, Bool.false_or]
  exact isExtends_layeredMarked 0 h.leaf h.ancestors

/-- A resolved tree has the requested name and no directives, as the root declares no parent. -/
theorem closed_of_resolve {h : Hierarchy} (hroot : h.root.declaration? = none) {limit : Nat}
    {tree : Template} (hok : h.resolve limit = .ok tree) :
    tree.name = h.leaf.name ∧ tree.hasDirectives = false := by
  rw [resolve_eq_run] at hok
  obtain ⟨hname, hcalls, hextends⟩ := closed_of_resolveSuper hok
  refine ⟨hname, ?_⟩
  rw [Template.hasDirectives, hcalls, Template.isSome_declaration?, hextends, isExtends_merged,
    ← Template.isSome_declaration?, hroot]
  rfl

end Hierarchy

/-! ### Answers over a cache -/

namespace Resolver

variable {resolver : Resolver} {hooks : Hooks} {cache : Cache} {now begun : Nat}
  {context : Context} {answer : SharedTemplate}

/-- A hierarchy that is finished with an answer resolves to it. -/
theorem resolve_of_finish {name : String} {h : Hierarchy} {loaded : List String}
    (hok : (resolver.finish cache now begun name context h loaded).outcome = .ok answer) :
    h.resolve resolver.maxSuperDepth = .ok answer.template := by
  cases htree : h.resolve resolver.maxSuperDepth with
  | error e =>
    rw [finish_of_error htree] at hok
    cases hok
  | ok tree =>
    rw [finish_of_ok htree] at hok
    dsimp only at hok
    split at hok
    · cases hok
    · rw [← Except.ok.inj hok]

/-- An answer that is built anew is what the built hierarchy resolves to. -/
theorem exists_of_rebuild {t : Template}
    (hok : (resolver.rebuild hooks cache now begun t context).outcome = .ok answer) :
    ∃ h, (Hierarchy.build resolver.loader resolver.evaluate context t).outcome = .ok h ∧
      h.resolve resolver.maxSuperDepth = .ok answer.template := by
  cases hbuild : (Hierarchy.build resolver.loader resolver.evaluate context t).outcome with
  | error e =>
    rw [rebuild_of_error hbuild] at hok
    cases hok
  | ok h =>
    refine ⟨h, rfl, ?_⟩
    cases hdynamic : h.isDynamic with
    | true =>
      rw [rebuild_of_dynamic hbuild hdynamic] at hok
      exact resolve_of_finish hok
    | false =>
      rw [rebuild_of_static hbuild hdynamic] at hok
      dsimp only at hok
      split at hok
      · cases hok
      · exact resolve_of_finish hok

end Resolver

namespace Cache

/-- A kept hierarchy stands under the requested template's name, and its root declares no parent. -/
def RootedHierarchy (key : String) (h : Hierarchy) : Prop :=
  key = h.leaf.name ∧ h.root.declaration? = none

/-- A kept tree has no directives and stands under its own name. -/
def ClosedTree (key : String) (entry : ResolvedEntry) : Prop :=
  entry.tree.template.hasDirectives = false ∧
    ∃ digest : String, ':' ∉ digest.toList ∧ key = resolvedKey entry.tree.name digest

/-- All kept trees are closed, and all kept hierarchies give closed trees. -/
abbrev Closed (cache : Cache) : Prop := cache.Every RootedHierarchy ClosedTree

private theorem rootedHierarchy_of_build {resolver : Resolver} {context : Context} {t : Template}
    {h : Hierarchy}
    (hbuild : (Hierarchy.build resolver.loader resolver.evaluate context t).outcome = .ok h) :
    RootedHierarchy t.name h := by
  refine ⟨?_, Hierarchy.declaration?_root_of_build hbuild⟩
  rw [((Hierarchy.build_eq_ok_iff _ _).mp hbuild).1]

/-- An access keeps nothing but closed trees. -/
theorem Closed.access {cache : Cache} (hcache : cache.Closed) (now : Nat) (access : Access) :
    (cache.access now access).Closed := by
  cases access with
  | maintain upkeep => exact hcache.of_keptFrom (cache.keptFrom_maintain upkeep)
  | sweep => exact hcache.of_keptFrom (cache.keptFrom_sweepExpired now)
  | resolve resolver hooks t context =>
    apply Resolver.every_resolveWith hcache
    · intro h hbuild hstatic
      exact rootedHierarchy_of_build hbuild
    · intro h tree stamp hsource htree
      have hrooted : RootedHierarchy t.name h := by
        rcases hsource with ⟨-, hkept⟩ | hbuild
        · exact hkept
        · exact rootedHierarchy_of_build hbuild
      obtain ⟨hname, hclosed⟩ := Hierarchy.closed_of_resolve hrooted.2 htree
      refine ⟨hclosed, h.keptDigest context, h.colon_notMem_keptDigest context, ?_⟩
      rw [hrooted.1, ← hname]
      rfl

/-- A run keeps nothing but closed trees. -/
theorem Closed.run {cache : Cache} (hcache : cache.Closed) (accesses : List (Nat × Access)) :
    (cache.run accesses).Closed :=
  run_preserves (fun _ now access hbefore ↦ hbefore.access now access) hcache accesses

private theorem ClosedTree.name_eq {entry : ResolvedEntry} {name digest : String}
    (hclosed : ClosedTree (resolvedKey name digest) entry) (hdigest : ':' ∉ digest.toList) :
    entry.tree.name = name := by
  obtain ⟨-, own, hown, hkey⟩ := hclosed
  exact (resolvedKey_inj hown hdigest hkey.symm).1

/-- Whatever is answered over a cache of closed trees has the requested name and no directives. -/
theorem Closed.answer {cache : Cache} (hcache : cache.Closed) {resolver : Resolver} {hooks : Hooks}
    {now : Nat} {t answer : SharedTemplate} {context : Context}
    (hok : (resolver.resolveWith hooks cache now t context).outcome = .ok answer) :
    answer.name = t.name ∧ answer.template.hasDirectives = false := by
  have hresolve {h : Hierarchy} (hrooted : RootedHierarchy t.name h)
      (htree : h.resolve resolver.maxSuperDepth = .ok answer.template) :
      answer.name = t.name ∧ answer.template.hasDirectives = false := by
    obtain ⟨hname, hclosed⟩ := Hierarchy.closed_of_resolve hrooted.2 htree
    exact ⟨hname.trans hrooted.1.symm, hclosed⟩
  rcases resolver.route_resolveWith hooks cache now t context with
    ⟨hplain, hresult⟩ | ⟨-, entry, hmem, hkey, -, after, -, hresult⟩ |
    ⟨entry, hmem, hkey, -, after, -, hresult⟩ | ⟨-, entry, hmem, hkey, before, -, hresult⟩ |
    ⟨before, -, hresult⟩
  · rw [hresult] at hok
    obtain rfl := Except.ok.inj hok
    exact ⟨rfl, hplain⟩
  · rw [hresult] at hok
    obtain rfl := Except.ok.inj hok
    have hclosed := hkey ▸ hcache.resolved entry hmem
    exact ⟨hclosed.name_eq colon_notMem_staticDigest, hclosed.1⟩
  · rw [hresult] at hok
    obtain rfl := Except.ok.inj hok
    have hclosed := hkey ▸ hcache.resolved entry hmem
    exact ⟨hclosed.name_eq context.colon_notMem_digest, hclosed.1⟩
  · rw [hresult] at hok
    exact hresolve (hkey ▸ hcache.hierarchies entry hmem) (Resolver.resolve_of_finish hok)
  · rw [hresult] at hok
    obtain ⟨h, hbuild, htree⟩ := Resolver.exists_of_rebuild hok
    exact hresolve (rootedHierarchy_of_build hbuild) htree

/-- After every run, an answer has the requested name, no declaration at the top level and no call
anywhere. So to resolve it again, whoever asks over whatever cache in whatever context, gives the
same object back and leaves the cache alone. -/
theorem answer_closed (settings : CacheSettings) (start : Nat) (accesses : List (Nat × Access))
    (resolver : Resolver) (hooks : Hooks) (now : Nat) (t answer : SharedTemplate)
    (context : Context)
    (hok : (resolver.resolveWith hooks ((new settings start).run accesses) now t
      context).outcome = .ok answer) :
    answer.name = t.name ∧
      (∀ node ∈ answer.template.nodes, node.isExtends = false) ∧
      (∀ leaf ∈ Nodes.leaves answer.template.nodes, leaf.isSuperCall = false) ∧
      answer.template.hasDirectives = false ∧
      ∀ (other : Resolver) (hooks' : Hooks) (cache : Cache) (now' : Nat) (context' : Context),
        other.resolveWith hooks' cache now' answer context' = ⟨.ok answer, cache, []⟩ := by
  have hrun : ((new settings start).run accesses).Closed :=
    Closed.run (every_new settings start) accesses
  obtain ⟨hname, hclosed⟩ := hrun.answer hok
  obtain ⟨hextends, hcalls⟩ := Bool.or_eq_false_iff.mp hclosed
  rw [Template.isSome_declaration?, List.any_eq_false] at hextends
  rw [Nodes.hasSuperCall_eq_any, List.any_eq_false] at hcalls
  refine ⟨hname, ?_, ?_, hclosed, ?_⟩
  · intro node hmem
    simpa using hextends node hmem
  · intro leaf hmem
    simpa using hcalls leaf hmem
  · intro other hooks' cache now' context'
    exact Resolver.resolveWith_of_plain hclosed

end Cache

namespace NestedPage

/-- A resolution of the leaf. -/
def access : Access := .resolve ⟨loader, .standard, 5⟩ .none ⟨leaf, 3⟩ ∅

/-- The second resolution of the leaf, served from the cache. -/
def served : Resolution :=
  Resolver.resolveWith ⟨loader, .standard, 5⟩ .none ((Cache.new {} 0).run [(4, access)]) 9
    ⟨leaf, 3⟩ ∅

/-- The tree with its spliced bodies, as the first resolution made it. -/
def resolved : SharedTemplate :=
  ⟨⟨"leaf",
    [.leaf (.importNames (.literal (.string "icons")) [⟨"star", none⟩]),
      .leaf (.importAs (.literal (.string "forms")) "forms"),
      .named "page"
        [.named "foot" [.text "middle", .text ""],
          .named "body" [.text "leaf ", .group [.text "middle ", .text "root"]]],
      .conditional (.var "extra")
        [.named "body" [.text "leaf ", .group [.text "middle ", .text "root"]]] []
        [.named "foot" []]]⟩, 8⟩

/-- The kept tree is served as it was made, and given back by every resolution of it. -/
theorem served_closed :
    served.outcome = .ok resolved ∧ served.loaded = [] ∧
      ∀ (other : Resolver) (hooks : Hooks) (cache : Cache) (now : Nat) (context : Context),
        other.resolveWith hooks cache now resolved context = ⟨.ok resolved, cache, []⟩ := by
  have hok : served.outcome = .ok resolved := by decide +kernel
  obtain ⟨-, -, -, -, hback⟩ := Cache.answer_closed {} 0 [(4, access)] _ .none 9 _ _ ∅ hok
  exact ⟨hok, by decide +kernel, hback⟩

end NestedPage

end TemplateInheritance
