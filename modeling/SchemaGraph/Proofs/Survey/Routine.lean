import SchemaGraph.Proofs.Survey.Shapes

namespace SchemaGraph

/-!
# Routine steps

Apart from the three kinds of nodes that are about defaults, the rules for a kind write keywords
that have nothing to do with defaults, lead to children of the node alone, and ask about those
alone.  What is said of the steps of a recipe can be shown for such steps in general.

* `Step.Routine`      — a step of that sort
* `routine_kindSteps` — the rules for a kind that is not about defaults
-/

/-- A step that leads to children of the node alone, asks about them alone, and neither writes nor
    keeps a default. -/
def Step.Routine (node : Node) : Step → Prop
  | .write key _ => key ≠ "default"
  | .visit child _ | .inherit child _ => child ∈ node.links
  | .require shape => ∀ p ∈ shape, p.2 ∈ node.links
  | .merge _ | .inheritSource _ _ | .prefault _ => False
  | _ => True

/-- **Kinds.** The rules for a kind that is not about defaults. -/
theorem routine_kindSteps {node : Node} {path : Path} (settings : LoweringSettings)
    (catchall : Option Kind) (hdefault : node.kind ≠ .default) (hprefault : node.kind ≠ .prefault)
    (hfallback : node.kind ≠ .fallback) :
    ∀ step ∈ kindSteps settings catchall node path, step.Routine node := by
  intro step h
  have hrule := byRule_kindSteps h
  cases step with
  | write key v =>
    have hapart : ∀ key ∈ "allOf" :: ruleKeywords, key ≠ "default" := by decide
    rcases hrule.keyword with hkey | ⟨rfl, -⟩ | ⟨-, hkind⟩
    · exact hapart key (List.mem_cons_of_mem _ hkey)
    · exact hapart _ (List.mem_cons_self ..)
    · exact absurd hkind (not_or.mpr ⟨hdefault, hfallback⟩)
  | visit child path =>
    cases hrule with
    | visit hlead => exact Node.mem_links_of_kindLeads hlead
  | inherit child path =>
    cases hrule with
    | inherit hwrapped => exact Node.mem_links_of_wrapped? hwrapped
  | require shape =>
    cases hrule
    exact fun p hp => List.mem_append_right _ (List.mem_map_of_mem hp)
  | prefault v =>
    cases hrule with
    | prefault hkind => exact absurd hkind hprefault
  | merge | inheritSource => cases hrule
  | _ => trivial

end SchemaGraph
