import Schematic.Proofs.Drawing.Writing

/-! What each style can draw and write of a graph that shows texts. One style shows identities; it
needs those that it shows as they are to be no longer than numbers can be, and of others a text. -/

namespace Schematic

open Json

namespace Json

def IsSound (j : Json) : Prop := j.firstFault? = none

theorem isSound_ofValue {v : Value} (words : v.IsTextIfAny) : (ofValue v).firstFault? = none := by
  obtain ⟨t, text⟩ | rfl := words
  · cases v with
    | text s => simp only [ofValue, firstFault?]
    | direction d => simp only [ofValue, firstFault?]
    | _ => cases text
  · simp only [ofValue, firstFault?]

theorem firstFaultOf?_append (ms ns : List (Text × Json)) :
    firstFaultOf? (ms ++ ns) = (firstFaultOf? ms).or (firstFaultOf? ns) := by
  induction ms with
  | nil => rfl
  | cons m ms ih => rw [List.cons_append, firstFaultOf?, ih, firstFaultOf?, Option.or_assoc]

theorem firstFault?_label {j : Json} (sound : j.firstFault? = none) :
    (JsonStyle.label j).firstFault? = none := by
  simp only [JsonStyle.label, firstFault?, firstFaultIn?, firstFaultOf?, sound, Option.or_none]

end Json

/-- What a component is called and of which type it is, both of a kind that documents can show. -/
structure Label.IsDrawable (label : Label) : Prop where
  basename : label.basename.IsText
  typeName : (ofValue label.typeName).firstFault? = none

structure Graph.PortFacts.IsDrawable (facts : Graph.PortFacts) : Prop where
  basename : facts.basename.IsText
  typeName : (ofValue facts.typeName).firstFault? = none
  signal : facts.signal.IsTextIfAny

/-- A graph that documents can show but for numbers: what is called something is so by a text, and
types can be written. -/
def Graph.IsDrawable (g : Graph) : Prop := g.HasOnly Label.IsDrawable Graph.PortFacts.IsDrawable

theorem Graph.IsLettered.isDrawable {g : Graph} (words : g.IsLettered) : g.IsDrawable where
  label := fun k hk =>
    let worded := words.label k hk
    ⟨worded.basename, isSound_ofValue (.inl worded.typeName)⟩
  ports := fun k hk f hf =>
    let lettered := words.ports k hk f hf
    ⟨lettered.basename, isSound_ofValue (.inl lettered.typeName), lettered.signal⟩

section

variable {g : Graph} {k : ComponentKey} {q : PortKey} {w : NumberedWire}

theorem writes_portRef (g : Graph) (q : PortKey) :
    Writes (portRef g q) ((g.port q).id.isWritable = true) fun j => j = g.portNumber q := by
  refine ((Writes.written (g.port q).id).bind fun t same => ?_).congr (and_true _).to_iff
  exact .pure (congrArg Json.text same)

theorem writes_wireLabel (words : g.IsDrawable) (hg : g.Coherent) {w : Wire}
    (hs : w.sourcePort ∈ g.ports) (ht : w.targetPort ∈ g.ports) :
    Writes (g.wireLabel w) True Value.IsText := by
  have source := words.ofPort hg hs
  have target := words.ofPort hg ht
  have truth {v : Value} (any : v.IsTextIfAny) (holds : v.isTrue = true) : v.IsText := by
    rcases any with text | rfl
    · exact text
    · cases holds
  unfold Graph.wireLabel connectionLabel
  split
  · next named => exact .pure (truth source.signal named)
  · split
    · next named => exact .pure (truth target.signal named)
    · refine ((Writes.written _).bind fun _ _ => (Writes.written _).bind fun _ _ =>
        Writes.pure ⟨_, rfl⟩).congr ?_
      exact iff_of_true ⟨source.basename.isWritable, target.basename.isWritable, trivial⟩ trivial

theorem firstFault?_document {style : JsonStyle} (title : Text) (root : Option Json)
    (closing : firstFaultOf? (style.closing (.text title)) = none) :
    (style.document (.text title) root).firstFault? = firstFaultIn? root.toList := by
  rw [JsonStyle.document, firstFault?, firstFaultOf?_append, closing, Option.or_none]
  simp only [firstFaultOf?, firstFault?, firstFaultIn?, JsonStyle.label, Option.none_or,
    Option.or_none]

namespace ElkJson

theorem writes_portMembers (words : g.IsDrawable) (hg : g.Coherent) (hq : q ∈ g.ports) :
    Writes (portMembers g q) ((g.port q).id.isWritable = true) fun ms =>
      firstFaultOf? ms = none := by
  have label := firstFault?_label (isSound_ofValue (.inl (words.ofPort hg hq).basename))
  refine ((writes_portRef g q).bind fun id same => Writes.pure ?_).congr (and_true _).to_iff
  rw [same]
  simp only [Port.facts] at label
  simp only [firstFaultOf?, firstFault?, Graph.portNumber, label, Option.or_none]

theorem writes_wire (g : Graph) (w : NumberedWire) :
    Writes (wire g w) ((g.port w.wire.sourcePort).id.isWritable = true ∧
      (g.port w.wire.targetPort).id.isWritable = true) fun j => j.firstFault? = none := by
  refine ((writes_portRef g _).bind fun s source => (writes_portRef g _).bind fun t target =>
    Writes.pure ?_).congr (and_congr_right fun _ => and_iff_left trivial)
  rw [source, target]
  simp only [firstFault?, firstFaultOf?, firstFaultIn?, Graph.portNumber, Option.or_none]

theorem firstFaultOf?_nodeMembers (words : g.IsDrawable) (hk : k ∈ g.roster)
    (ports children wires : List Json) :
    firstFaultOf? (nodeMembers g k ports children wires) =
      (firstFaultIn? ports).or ((firstFaultIn? children).or (firstFaultIn? wires)) := by
  have label := firstFault?_label (isSound_ofValue (.inl (words.label k hk).basename))
  simp only [Graph.label] at label
  simp only [nodeMembers, firstFaultOf?, firstFault?, componentRef, label, Option.none_or,
    Option.or_none]

theorem draws (words : g.IsDrawable) (hg : g.Coherent) :
    style.Draws g (fun _ => True) fun _ => True where
  port := by
    intro q hq
    refine ((writes_portMembers words hg hq).map fun ms sound => ?_).congr (and_true _).to_iff.symm
    rw [firstFault?, sound]
    exact .none
  wire := fun w _ _ => writes_wire g w
  node := fun k hk ports children wires _ => firstFaultOf?_nodeMembers words hk ports children wires
  document := fun title root => firstFault?_document title root rfl

end ElkJson

namespace DebugJson

theorem faultUnless_shown {v : Value} (shown : isShownAsIs v = true) :
    FaultUnless (v.isWritable = true) (ofValue v).firstFault? := by
  cases v with
  | int n =>
    rw [ofValue, Value.isWritable]
    split
    · next short => exact ⟨fun _ => rfl, fun long => absurd short long⟩
    · next long => exact ⟨fun short => absurd short long, fun _ => rfl⟩
  | list | tuple | mapping | knot | again | bytes | date | moment | set => cases shown
  | _ =>
    refine FaultUnless.none.congr (iff_of_true trivial ?_)
    simp only [Value.isWritable]

theorem isSound_ofValue_iff {v : Value} (shown : isShownAsIs v = true) :
    (ofValue v).IsSound ↔ v.isWritable = true := (faultUnless_shown shown).eq_none_iff

theorem writes_identityValue (v : Value) :
    Writes (identityValue v) (isShownAsIs v = true ∨ v.isWritable = true) fun shown =>
      FaultUnless (v.isWritable = true) (ofValue shown).firstFault? := by
  unfold identityValue
  by_cases shown : isShownAsIs v = true
  · rw [if_pos shown]
    exact ⟨fun _ => ⟨v, rfl, faultUnless_shown shown⟩, fun h => absurd (.inl shown) h⟩
  · rw [if_neg shown]
    by_cases writable : v.isWritable = true
    · rw [if_pos writable]
      exact ⟨fun _ => ⟨_, rfl, fun _ => rfl, fun long => absurd writable long⟩,
        fun h => absurd (.inr writable) h⟩
    · rw [if_neg writable]
      exact ⟨fun h => absurd h (not_or.mpr ⟨shown, writable⟩), fun _ => rfl⟩

theorem writes_portExtras (words : g.IsDrawable) (hg : g.Coherent) (hq : q ∈ g.ports) :
    Writes (portExtras g q)
      (isShownAsIs (g.port q).identity = true ∨ (g.port q).identity.isWritable = true) fun ms =>
        FaultUnless ((g.port q).identity.isWritable = true) (firstFaultOf? ms) := by
  have typeName := (words.ofPort hg hq).typeName
  simp only [Port.facts] at typeName
  refine ((writes_identityValue _).bind fun shown faults => Writes.pure ?_).congr
    (and_true _).to_iff
  simp only [firstFaultOf?, typeName, firstFault?, Option.none_or, Option.or_none]
  exact faults

theorem draws (words : g.IsDrawable) (hg : g.Coherent) : style.Draws g
    (fun q => isShownAsIs (g.port q).identity = true ∨ (g.port q).identity.isWritable = true)
    fun q => (g.port q).identity.isWritable = true where
  port := by
    intro q hq
    refine ((ElkJson.writes_portMembers words hg hq).bind fun ms sound =>
      (writes_portExtras words hg hq).bind fun extras faults => Writes.pure ?_).congr
        (and_congr_right fun _ => and_iff_left trivial)
    rw [firstFault?, firstFaultOf?_append, sound, Option.none_or]
    exact faults
  wire := fun w _ _ => ElkJson.writes_wire g w
  node := by
    intro k hk ports children wires last
    have extras : firstFaultOf? (nodeExtras g k) = none := by
      have basename := isSound_ofValue (.inl (words.label k hk).basename)
      have typeName := (words.label k hk).typeName
      simp only [Graph.label] at basename typeName
      simp only [nodeExtras, firstFaultOf?, firstFault?, basename, typeName, Option.or_none]
    have node : style.node g k ports children wires last =
      .object (ElkJson.nodeMembers g k ports children wires ++ nodeExtras g k) := rfl
    rw [node, firstFault?, firstFaultOf?_append, extras, Option.or_none,
      ElkJson.firstFaultOf?_nodeMembers words hk]
  document := fun title root => firstFault?_document title root rfl

end DebugJson

namespace D3Json

theorem writes_wire (words : g.IsDrawable) (hg : g.Coherent)
    (hs : w.wire.sourcePort ∈ g.ports) (ht : w.wire.targetPort ∈ g.ports) :
    Writes (wire g w) ((g.port w.wire.sourcePort).id.isWritable = true ∧
      (g.port w.wire.targetPort).id.isWritable = true) fun j => j.firstFault? = none := by
  refine ((writes_portRef g _).bind fun s source => (writes_portRef g _).bind fun t target =>
    (writes_wireLabel words hg hs ht).bind fun v text => Writes.pure ?_).congr
      (and_congr_right fun _ => and_iff_left ⟨trivial, trivial⟩)
  rw [source, target]
  simp only [firstFault?, firstFaultOf?, Graph.portNumber, componentRef,
    isSound_ofValue (.inl text), Option.or_none]

theorem draws (words : g.IsDrawable) (hg : g.Coherent) :
    style.Draws g (fun _ => True) fun _ => True where
  port := by
    intro q hq
    have name := isSound_ofValue (.inl (words.ofPort hg hq).basename)
    simp only [Port.facts] at name
    refine (writes_portRef g q).bind fun id same => Writes.pure ?_
    rw [same]
    simp only [firstFault?, firstFaultOf?, firstFaultIn?, Graph.portNumber, name, Option.or_none]
    exact .none
  wire := fun w hs ht => writes_wire words hg hs ht
  node := by
    intro k hk ports children wires last
    have basename := isSound_ofValue (.inl (words.label k hk).basename)
    have typeName := (words.label k hk).typeName
    simp only [Graph.label] at basename typeName
    have shape : style.node g k ports children wires last =
      node g k ports children wires last := rfl
    rw [shape, node]
    simp only [firstFault?, firstFaultOf?, componentRef, properties, basename, typeName,
      Option.none_or, Option.or_none]
  document := fun title root => firstFault?_document title root rfl

end D3Json

end

end Schematic
