import Schematic.Proofs.PassThrough.Underway
import Schematic.Proofs.Recoding.Survey

/-! The inference of pass-through ports on a graph with other identities. Its bindings hold the same
ports in the same order, so the same crossings get ports, and each gets the identity that the
recoding gives to the one it would have had. -/

namespace Schematic

def Binding.recoded (c : Recoding) (b : Binding) : Binding :=
  { b with identity := c.apply b.identity }

theorem Binding.insert_recoded {c : Recoding} {identity : Value} {p : PortKey} {bs : List Binding}
    (new : c.Knows identity) (known : ∀ b ∈ bs, c.Knows b.identity) :
    insert (c.apply identity) p (bs.map (recoded c)) = (insert identity p bs).map (recoded c) := by
  induction bs with
  | nil => rfl
  | cons b bs ih =>
    rw [List.forall_mem_cons] at known
    rw [List.map_cons, insert, insert,
      show (b.recoded c).identity.same (c.apply identity) = b.identity.same identity from
        Recoding.same_apply known.1 new, ih known.2]
    split <;> rfl

namespace Graph

open Schematic.Action

variable {c : Recoding} {g : Graph} {driver receiver : PortKey}

theorem isBound_recoded (known : g.IsKnown c) (p : PortKey) :
    ((g.recoded c).port p).isBound = (g.port p).isBound := by
  rw [port_recoded, Port.isBound, Port.isBound]
  exact congrArg _ (Recoding.isNull_apply (known.port p))

theorem connects_recoded (known : g.IsKnown c) (p q : PortKey) :
    ((g.recoded c).port p).connects ((g.recoded c).port q) = (g.port p).connects (g.port q) := by
  rw [Port.connects, Port.connects, isBound_recoded known, isBound_recoded known, port_recoded,
    port_recoded]
  exact congrArg _ (Recoding.equal_apply (known.port p) (known.port q))

theorem portFor_recoded (known : g.IsKnown c) (k : ComponentKey) (q : PortKey) :
    (g.recoded c).portFor k ((g.recoded c).port q).identity = g.portFor k (g.port q).identity := by
  have held (p : PortKey) : ((g.recoded c).port p).identity.equal ((g.recoded c).port q).identity =
      (g.port p).identity.equal (g.port q).identity := by
    rw [port_recoded, port_recoded]
    exact Recoding.equal_apply (known.port p) (known.port q)
  have null : ((g.recoded c).port q).identity.isNull = (g.port q).identity.isNull := by
    rw [port_recoded]
    exact Recoding.isNull_apply (known.port q)
  rw [portFor, portFor, null]
  simp only [held]
  rfl

theorem bindingsOf_recoded (known : g.IsKnown c) (ps : List PortKey) (bs : List Binding)
    (met : ∀ b ∈ bs, c.Knows b.identity) :
    (g.recoded c).bindingsOf ps (bs.map (Binding.recoded c)) =
      (g.bindingsOf ps bs).map (List.map (Binding.recoded c)) := by
  induction ps generalizing bs with
  | nil => rfl
  | cons p ps ih =>
    have new := known.port p
    rw [bindingsOf, bindingsOf, port_recoded, if_pos new.isIdentity.1]
    refine (if_pos (Recoding.isIdentity_apply new).1).trans ?_
    have sorted := Binding.insert_recoded (p := p) new met
    refine (congrArg _ sorted).trans (ih _ fun b hb => ?_)
    rcases Binding.insert_identity bs b hb with ⟨b', hb', same⟩ | same
    · exact same ▸ met b' hb'
    · exact same ▸ new

theorem bindings_recoded (known : g.IsKnown c) :
    (g.recoded c).bindings = g.bindings.map (List.map (Binding.recoded c)) := by
  rw [bindings, boundPorts, ports_recoded]
  simp only [isBound_recoded known]
  exact bindingsOf_recoded known _ [] (List.forall_mem_nil _)

theorem pairs_recoded (c : Recoding) (g : Graph) (b : Binding) :
    (b.recoded c).pairs (g.recoded c) = b.pairs g := by
  simp only [Binding.pairs, Binding.drivers, Binding.receivers, port_recoded]
  rfl

theorem passThroughFacts_recoded (c : Recoding) (g : Graph) (driver receiver : PortKey)
    (crumb : Crumb) : (g.recoded c).passThroughFacts driver receiver crumb =
      (g.passThroughFacts driver receiver crumb).map (PortFacts.recoded c) := by
  have basename (p : PortKey) : ((g.recoded c).port p).basename = (g.port p).basename := by
    rw [port_recoded]
    rfl
  have typeName (p : PortKey) : ((g.recoded c).port p).typeName = (g.port p).typeName := by
    rw [port_recoded]
    rfl
  have identity : ((g.recoded c).port receiver).identity = c.apply (g.port receiver).identity := by
    rw [port_recoded]
    rfl
  rw [passThroughFacts, passThroughFacts, component_recoded]
  simp only [basename, typeName, identity]
  cases (g.component crumb.component).name.written with
  | error e => rfl
  | ok owner => cases (g.port (if crumb.upwards then driver else receiver)).basename.written <;> rfl

theorem recodes_passThroughAt (known : g.IsKnown c) (driver receiver : PortKey) (crumb : Crumb) :
    g.Recodes c (passThroughAt driver receiver crumb) (passThroughAt driver receiver crumb) := by
  unfold passThroughAt
  refine .look ?_
  rw [portFor_recoded known]
  cases g.portFor crumb.component (g.port receiver).identity with
  | some _ => exact carries_pure known
  | none =>
    rw [passThroughFacts_recoded]
    refine .of_map known fun facts asked => ?_
    have new : c.Knows facts.identity := by
      rw [eq_of_passThroughFacts asked]
      exact known.port receiver
    refine .bind (recodes_addPort known _ new) fun _ _ known => ?_
    rw [port_recoded, port_recoded]
    exact .bind (carries_note known) fun _ _ known => carries_pure known

theorem recodes_total {α : Type} {act : α → Action Graph Nat}
    (step : ∀ a g, IsKnown c g → g.Recodes c (act a) (act a)) (items : List α)
    (known : g.IsKnown c) : g.Recodes c (total act items) (total act items) := by
  induction items generalizing g with
  | nil => exact carries_pure known
  | cons a items ih =>
    exact .bind (step a g known) fun _ _ known => .bind (ih known) fun _ _ known =>
      carries_pure known

theorem recodes_bridge (known : g.IsKnown c) (driver receiver : PortKey) :
    g.Recodes c (bridge driver receiver) (bridge driver receiver) := by
  unfold bridge
  refine .look ?_
  rw [owner_recoded, owner_recoded]
  refine .bind (carries_of _ known) fun start _ known => ?_
  refine .bind (carries_of _ known) fun goal _ known => ?_
  rw [trail_recoded, port_recoded, port_recoded]
  by_cases inside : start = goal
  · rw [if_pos inside, if_pos inside]
    exact carries_pure known
  · rw [if_neg inside, if_neg inside]
    refine .bind (carries_of _ known) fun trail? _ known => ?_
    cases trail? with
    | none => exact .bind (carries_note known) fun _ _ known => carries_pure known
    | some trail =>
      exact recodes_total (fun crumb _ known => recodes_passThroughAt known _ _ crumb) _ known

theorem recodes_addPassThroughs (known : g.IsKnown c) :
    g.Recodes c addPassThroughs addPassThroughs := by
  unfold addPassThroughs
  refine .look ?_
  rw [bindings_recoded known]
  refine .of_map known fun bs _ => ?_
  rw [List.flatMap_map]
  simp only [pairs_recoded]
  exact .bind (recodes_total (fun pair _ known => recodes_bridge known pair.1 pair.2) _ known)
    fun _ _ known => .bind (carries_note known) fun _ _ known => carries_pure known

end Graph

variable {σ : Type} {c : Recoding} {objects : List SimObject}

theorem extract_recoded (options : SurveyOptions)
    (reported : ∀ f ∈ SimObject.reportsAmong objects, c.Knows f.identity)
    (s : σ) : extract options (SimObject.recodedAll c objects) s =
        (extract options objects s).map (Graph.recoded c) ∧
      ∀ g, (extract options objects s).answer = .ok g → g.IsKnown c := by
  obtain ⟨surveyed, known⟩ := surveyOf_recoded options reported s
  constructor
  · refine Action.map_bind surveyed fun survey t found => ?_
    exact ((Graph.recodes_addPassThroughs (known survey found)).final rfl t).1
  · intro g extracted
    obtain ⟨survey, found, inferred⟩ := Action.exists_of_bind_answer extracted
    exact ((Graph.recodes_addPassThroughs (known survey found)).final rfl _).2 g inferred

end Schematic
