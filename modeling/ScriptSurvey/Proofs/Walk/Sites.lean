import ScriptSurvey.Proofs.Walk.Descent

/-!
# The places that a walk visits

A *site* is a node together with the nodes around it. `Node.sites` lists the sites of a tree along
its named children, each node before its children and from left to right. What the walk knows at a
site, the scope above all, is a matter of the nodes around it: the scope is the nearest declaration
(`Site.owner?`), and its depth is the number of declarations around.

* `descend_eq_foldl`: the descent is a fold over the sites;
* `tally_eq_surveyed`: so is the tally of a whole tree;
* `mem_declared_of_mem_declaredAround`: a function around a site is declared at a site.

A finding of the walk thereby becomes a property of the list of sites.
-/

namespace ScriptSurvey

/-- A node with the nodes around it, the nearest first. -/
structure Site where
  ancestors : List Node
  node : Node

namespace Site

/-- The kind of the nearest node around. -/
def parentKind (v : Site) : Option String :=
  v.ancestors.head?.map (·.kind)

/-- The name of the function that the node declares. -/
def declared? (v : Site) : Option String :=
  v.node.declaredName? v.parentKind

/-- The names of the functions whose declarations are among the given nodes, each of which stands
in the next. -/
def declaredAround : List Node → List String
  | [] => []
  | n :: outer => (declared? ⟨outer, n⟩).toList ++ declaredAround outer

/-- The name of the nearest function around. -/
def owner? (v : Site) : Option String :=
  (declaredAround v.ancestors).head?

/-- The name of the nearest function around, or that of the file. -/
def owner (v : Site) : String :=
  v.owner?.getD fileScope

/-- The scope at a site. -/
def scope (v : Site) : Scope :=
  ⟨v.owner, (declaredAround v.ancestors).length⟩

end Site

namespace Node

mutual

/-- The sites of a tree that stands in the given nodes. -/
def sites (ancestors : List Node) : Node → List Site
  | ⟨kind, field, named, missing, flagged, start, text, children⟩ =>
    let n : Node := ⟨kind, field, named, missing, flagged, start, text, children⟩
    ⟨ancestors, n⟩ :: sitesAll (n :: ancestors) children

/-- The sites of the named ones among a list of trees. -/
def sitesAll (ancestors : List Node) : List Node → List Site
  | [] => []
  | n :: ns => if n.named then sites ancestors n ++ sitesAll ancestors ns else sitesAll ancestors ns

end

theorem sitesAll_eq_flatMap (ancestors ns : List Node) :
    sitesAll ancestors ns = (ns.filter (·.named)).flatMap (sites ancestors) := by
  induction ns with
  | nil => rfl
  | cons n ns ih =>
    rw [sitesAll, List.filter_cons]
    split
    · rw [ih, List.flatMap_cons]
    · exact ih

/-- The sites of a tree: its root, and then those of its named children. -/
theorem sites_eq (ancestors : List Node) (n : Node) :
    n.sites ancestors = ⟨ancestors, n⟩ :: n.namedChildren.flatMap (sites (n :: ancestors)) := by
  obtain ⟨⟩ := n
  simp only [sites, sitesAll_eq_flatMap, namedChildren]

/-- A function around a site is declared at a site of the same tree, or around the tree. -/
theorem mem_declared_of_mem_declaredAround {n : Node} {ancestors : List Node} {v : Site}
    (hv : v ∈ n.sites ancestors) {name : String} (h : name ∈ Site.declaredAround v.ancestors) :
    name ∈ (n.sites ancestors).filterMap Site.declared? ∨ name ∈ Site.declaredAround ancestors := by
  induction n using named_induction generalizing ancestors with
  | step n ih =>
    rw [sites_eq] at hv ⊢
    rcases List.mem_cons.mp hv with rfl | hv
    · exact .inr h
    obtain ⟨child, hc, hv⟩ := List.mem_flatMap.mp hv
    rcases ih child hc hv with below | around
    · obtain ⟨w, hw, hd⟩ := List.mem_filterMap.mp below
      exact .inl (List.mem_filterMap.mpr
        ⟨w, List.mem_cons_of_mem _ (List.mem_flatMap.mpr ⟨child, hc, hw⟩), hd⟩)
    · rcases List.mem_append.mp around with here | around
      · exact .inl (List.mem_filterMap.mpr ⟨_, List.mem_cons_self, Option.mem_toList.mp here⟩)
      · exact .inr around

end Node

/-! ## The walk as a fold -/

namespace Tally

/-- Visit a site in the scope that it is in. -/
def visitSite (t : Tally) (v : Site) : Tally :=
  (t.inScope v.scope).arrive v.parentKind v.node v.ancestors.length

/-- The findings at a list of sites. -/
def survey (vs : List Site) : Tally :=
  vs.foldl visitSite {}

theorem survey_append_singleton (vs : List Site) (v : Site) :
    survey (vs ++ [v]) = (survey vs).visitSite v := by
  simp [survey]

/-- The scope in which a list of sites is taken up does not matter, since each brings its own. -/
theorem foldl_visitSite_inScope (vs : List Site) (t : Tally) (before after : Scope) :
    (vs.foldl visitSite (t.inScope before)).inScope after =
      (vs.foldl visitSite t).inScope after := by
  cases vs <;> rfl

end Tally

/-- The descent below a node is the fold over its sites, wherever the node stands. -/
def DescendsAsFold (n : Node) : Prop :=
  ∀ (ancestors : List Node) (t : Tally), t.scope = Site.scope ⟨ancestors, n⟩ →
    descend (Site.parentKind ⟨ancestors, n⟩) ancestors.length t n =
      .ok (((n.sites ancestors).foldl Tally.visitSite t).inScope t.scope)

theorem foldlM_descend_eq_foldl {ns : List Node} (each : ∀ n ∈ ns, DescendsAsFold n)
    (around : Node) (ancestors : List Node) (t : Tally)
    (h : t.scope = Site.scope ⟨around :: ancestors, around⟩) :
    ns.foldlM (descend (some around.kind) (ancestors.length + 1)) t =
      .ok (((ns.flatMap (Node.sites (around :: ancestors))).foldl Tally.visitSite t).inScope
        t.scope) := by
  induction ns generalizing t with
  | nil => rfl
  | cons n ns ih =>
    have first : descend (some around.kind) (ancestors.length + 1) t n = _ :=
      each n (by simp) (around :: ancestors) t h
    have later := ih (fun m hm => each m (by simp [hm]))
      (((n.sites (around :: ancestors)).foldl Tally.visitSite t).inScope t.scope) h
    rw [Tally.foldl_visitSite_inScope] at later
    rw [List.foldlM_cons, first, List.flatMap_cons, List.foldl_append]
    exact later

/-- **The descent is a fold over the sites.** -/
theorem descend_eq_foldl (n : Node) : DescendsAsFold n := by
  induction n using Node.named_induction with
  | step n ih =>
    intro ancestors t h
    have below := foldlM_descend_eq_foldl ih n ancestors
    -- the first site is visited in the scope at hand
    have first : t.visitSite ⟨ancestors, n⟩ =
        t.arrive (Site.parentKind ⟨ancestors, n⟩) n ancestors.length := by
      rw [Tally.visitSite, ← h, Tally.inScope_self]
    have hscope : (t.arrive (Site.parentKind ⟨ancestors, n⟩) n ancestors.length).scope = t.scope :=
      Tally.arrive_scope ..
    rw [descend_eq, Node.sites_eq, List.foldl_cons, first]
    generalize t.arrive (Site.parentKind ⟨ancestors, n⟩) n ancestors.length = t₁ at hscope ⊢
    cases hd : n.declaredName? (Site.parentKind ⟨ancestors, n⟩) with
    | none =>
      have hin : t₁.scope = Site.scope ⟨n :: ancestors, n⟩ := by
        rw [hscope, h]
        simp [Site.scope, Site.owner, Site.owner?, Site.declaredAround, Site.declared?, hd]
      rw [← hscope]
      exact below t₁ hin
    | some name =>
      have hin : (t₁.enter name).2.scope = Site.scope ⟨n :: ancestors, n⟩ := by
        simp only [Tally.enter, Scope.enter, hscope, h]
        simp [Site.scope, Site.owner, Site.owner?, Site.declaredAround, Site.declared?, hd]
      -- the descent below ends in the scope in which it began, and leaving that restores the outer
      simp only [below _ hin, bind, Except.bind]
      rw [Tally.leave_enter (Tally.inScope_scope ..), Tally.inScope_inScope, hscope]
      exact congrArg Except.ok (Tally.foldl_visitSite_inScope _ t₁ _ _)

/-- The findings in a whole tree. -/
def Node.surveyed (root : Node) : Tally :=
  Tally.survey (root.sites [])

/-- **The tally of a tree is the fold over its sites**, with the scope of the file at the end. -/
theorem tally_eq_surveyed (root : Node) : tally root = .ok (root.surveyed.inScope {}) := by
  obtain ⟨t, hd, ht, -⟩ := tally_ok root
  rw [ht, ← hd]
  exact descend_eq_foldl root [] {} rfl

end ScriptSurvey
