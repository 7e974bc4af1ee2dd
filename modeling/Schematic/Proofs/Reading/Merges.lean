import Schematic.Proofs.Reading.Faults
import Schematic.Yaml.Merge

/-! What bringing in the pairs of merge keys does to the nodes of a YAML document. It changes
mappings, and the tags of keys into that of texts, and nothing else; it fails at the grammar
alone. -/

namespace Schematic.Yaml.NodeGraph

variable {g h : NodeGraph} {id : NodeId} {t : Text}

/-- A graph that has come from another one by changes to its mappings and to the tags of texts. -/
structure ComesFrom (g h : NodeGraph) : Prop where
  scalar : ∀ {id t}, (g.node id).content = .scalar t → (h.node id).content = .scalar t
  mapping : ∀ id, g.isMapping id = h.isMapping id
  tag : ∀ id, (g.node id).tag = (h.node id).tag ∨ (g.node id).tag = .text

namespace ComesFrom

theorem refl (g : NodeGraph) : g.ComesFrom g := ⟨id, fun _ => rfl, fun _ => .inl rfl⟩

theorem trans {k : NodeGraph} (first : g.ComesFrom h) (second : h.ComesFrom k) :
    g.ComesFrom k where
  scalar written := second.scalar (first.scalar written)
  mapping id := (first.mapping id).trans (second.mapping id)
  tag id := by
    rcases first.tag id with same | text
    · rw [same]
      exact second.tag id
    · exact .inr text

theorem tagged (from' : g.ComesFrom h) {tag : Tag} (tagged : (g.node id).tag = tag)
    (other : tag ≠ .text) : (h.node id).tag = tag := by
  rcases from'.tag id with same | text
  · exact same.symm.trans tagged
  · exact absurd (tagged.symm.trans text) other

end ComesFrom

theorem node_modify (g : NodeGraph) (id other : NodeId) (f : Node → Node) :
    (⟨g.nodes.modify id f⟩ : NodeGraph).node other = g.node other ∨
      id = other ∧ (⟨g.nodes.modify id f⟩ : NodeGraph).node other = f (g.node other) := by
  simp only [node, Array.getD_eq_getD_getElem?, Array.getElem?_modify]
  by_cases same : id = other
  · cases g.nodes[other]? with
    | none => exact .inl (by simp)
    | some n => exact .inr ⟨same, by simp [same]⟩
  · exact .inl (by simp [same])

theorem setContent_comesFrom (held : g.isMapping id = true) (pairs : List (NodeId × NodeId)) :
    (g.setContent id (.mapping pairs)).ComesFrom g where
  scalar {other t} written := by
    rcases node_modify g id other _ with same | ⟨-, set⟩
    · exact same ▸ written
    · rw [setContent, set] at written
      cases written
  mapping other := by
    rcases node_modify g id other _ with same | ⟨rfl, set⟩
    · rw [isMapping, setContent, same]
      rfl
    · rw [held, isMapping, setContent, set]
  tag other := by
    rcases node_modify g id other _ with same | ⟨-, set⟩
    · exact .inl (by rw [setContent, same])
    · exact .inl (by rw [setContent, set])

theorem setTag_comesFrom (g : NodeGraph) (id : NodeId) : (g.setTag id .text).ComesFrom g where
  scalar {other t} written := by
    rcases node_modify g id other _ with same | ⟨-, set⟩
    · exact same ▸ written
    · rw [setTag, set] at written
      exact written
  mapping other := by
    rcases node_modify g id other _ with same | ⟨-, set⟩
    · rw [isMapping, setTag, same]
      rfl
    · rw [isMapping, setTag, set]
      rfl
  tag other := by
    rcases node_modify g id other _ with same | ⟨-, set⟩
    · exact .inl (by rw [setTag, same])
    · exact .inr (by rw [setTag, set])

theorem withOrdinaryKey_comesFrom (g : NodeGraph) (pair : NodeId × NodeId) :
    (g.withOrdinaryKey pair).ComesFrom g := by
  unfold withOrdinaryKey
  split
  · exact setTag_comesFrom g pair.1
  · exact .refl g

theorem withMerged_comesFrom (held : g.isMapping id = true) (merged : List (NodeId × NodeId)) :
    (g.withMerged id merged).ComesFrom g := by
  have keys (pairs : List (NodeId × NodeId)) (h : NodeGraph) (from' : h.ComesFrom g) :
      (pairs.foldl withOrdinaryKey h).ComesFrom g := by
    induction pairs generalizing h with
    | nil => exact from'
    | cons pair pairs ih => exact ih _ ((withOrdinaryKey_comesFrom h pair).trans from')
  have ordinary := keys (g.pairs id) g (.refl g)
  exact (setContent_comesFrom ((ordinary.mapping id).trans held) _).trans ordinary

structure Resolves (resolve : NodeId → NodeGraph → Reading NodeGraph) : Prop where
  blames : ∀ {P : ScalarFault → Prop} (id : NodeId) (g : NodeGraph), Blames P (resolve id g)
  comesFrom : ∀ {id : NodeId} {g h : NodeGraph}, h.isMapping id = true →
    resolve id h = .ok g → g.ComesFrom h

section

variable {P : ScalarFault → Prop} {resolve : NodeId → NodeGraph → Reading NodeGraph}
  (resolves : Resolves resolve)
include resolves

theorem bringAll_blames (g : NodeGraph) (ids : List NodeId) (brought : List (NodeId × NodeId)) :
    Blames P (bringAll resolve g ids brought) := by
  induction ids generalizing g brought with
  | nil => exact .ok _
  | cons id ids ih => exact .ite (.bind (resolves.blames id g) fun _ _ => ih _ _) .malformed

theorem bringAll_comesFrom {ids : List NodeId} {brought : List (NodeId × NodeId)}
    {found : List (NodeId × NodeId) × NodeGraph}
    (read : bringAll resolve h ids brought = .ok found) : found.2.ComesFrom h := by
  induction ids generalizing h brought with
  | nil =>
    cases read
    exact .refl h
  | cons id ids ih =>
    unfold bringAll at read
    split at read
    · next held =>
      cases done : resolve id h with
      | error e =>
        rw [done] at read
        cases read
      | ok k =>
        rw [done] at read
        exact (ih read).trans (resolves.comesFrom held done)
    · cases read

theorem bring_blames (g : NodeGraph) (value : NodeId) : Blames P (bring resolve g value) := by
  unfold bring
  split
  · exact bringAll_blames resolves _ _ _
  · exact bringAll_blames resolves _ _ _
  · exact .malformed

theorem bring_comesFrom {value : NodeId} {found : List (NodeId × NodeId) × NodeGraph}
    (read : bring resolve h value = .ok found) : found.2.ComesFrom h := by
  unfold bring at read
  split at read
  · exact bringAll_comesFrom resolves read
  · exact bringAll_comesFrom resolves read
  · cases read

end

theorem resolveMerges_resolves (fuel : Nat) (merged : List (NodeId × NodeId)) :
    Resolves (resolveMerges fuel merged) := by
  induction fuel generalizing merged with
  | zero =>
    refine ⟨fun id g => .ok _, ?_⟩
    rintro id _ h held ⟨⟩
    exact withMerged_comesFrom held merged
  | succ fuel ih =>
    constructor
    · intro P id g
      unfold resolveMerges
      split
      · exact .ok _
      · exact .bind (bring_blames (ih []) _ _) fun found _ => (ih _).blames _ _
    · intro id g h held read
      unfold resolveMerges at read
      split at read
      · cases read
        exact withMerged_comesFrom held merged
      · next place found =>
        have taken := setContent_comesFrom held ((h.pairs id).eraseIdx place)
        dsimp only at read
        cases done : bring (resolveMerges fuel []) (h.setContent id (.mapping
            ((h.pairs id).eraseIdx place))) ((h.pairs id).getD place default).2 with
        | error e =>
          rw [done] at read
          cases read
        | ok brought =>
          rw [done] at read
          have from' := (bring_comesFrom (ih []) done).trans taken
          exact ((ih _).comesFrom ((from'.mapping id).trans held) read).trans from'

/-- A graph that a document comes to when the merge keys of some mappings are resolved. -/
inductive Resolved (g : NodeGraph) : NodeGraph → Prop
  | parsed : Resolved g g
  | mapping {h k : NodeGraph} {id : NodeId} (before : Resolved g h) (held : h.isMapping id = true)
      (resolved : resolveMerges (h.mergeCount + 1) [] id h = .ok k) : Resolved g k

theorem Resolved.comesFrom (resolved : g.Resolved h) : h.ComesFrom g := by
  induction resolved with
  | parsed => exact .refl g
  | mapping _ held resolved ih =>
    exact ((resolveMerges_resolves _ []).comesFrom held resolved).trans ih

end Schematic.Yaml.NodeGraph
