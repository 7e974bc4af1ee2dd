import Schematic.Proofs.Drawing.Document
import Schematic.Proofs.Recoding.Drawing

/-! The diagram that shows identities. With other identities it differs in these alone, provided
that they can be written; a whole number of too many digits cannot. -/

namespace Schematic

namespace Json

variable {name : Text} {allowed : Json → Prop}
  {others others' : List (Text × Json)}

mutual

/-- Two documents that are the same but for what stands under one name. There the second one may
have any of the allowed values. -/
inductive AgreeOutside (name : Text) (allowed : Json → Prop) : Json → Json → Prop where
  | same (j : Json) : AgreeOutside name allowed j j
  | array {items items' : List Json} (inner : AgreeAll name allowed items items') :
      AgreeOutside name allowed (.array items) (.array items')
  | object {members members' : List (Text × Json)} (inner : AgreeIn name allowed members members') :
      AgreeOutside name allowed (.object members) (.object members')

inductive AgreeAll (name : Text) (allowed : Json → Prop) : List Json → List Json → Prop where
  | nil : AgreeAll name allowed [] []
  | cons {j j' : Json} {items items' : List Json} (first : AgreeOutside name allowed j j')
      (rest : AgreeAll name allowed items items') :
      AgreeAll name allowed (j :: items) (j' :: items')

inductive AgreeIn (name : Text) (allowed : Json → Prop) :
    List (Text × Json) → List (Text × Json) → Prop where
  | nil : AgreeIn name allowed [] []
  | cons (n : Text) {j j' : Json} {members members' : List (Text × Json)}
      (first : AgreeOutside name allowed j j') (rest : AgreeIn name allowed members members') :
      AgreeIn name allowed ((n, j) :: members) ((n, j') :: members')
  | free (j : Json) {j' : Json} {members members' : List (Text × Json)} (new : allowed j')
      (rest : AgreeIn name allowed members members') :
      AgreeIn name allowed ((name, j) :: members) ((name, j') :: members')

end

theorem AgreeIn.refl (members : List (Text × Json)) : AgreeIn name allowed members members := by
  induction members with
  | nil => exact .nil
  | cons m members ih => exact .cons m.1 (.same m.2) ih

theorem AgreeIn.after (members : List (Text × Json)) (rest : AgreeIn name allowed others others') :
    AgreeIn name allowed (members ++ others) (members ++ others') := by
  induction members with
  | nil => exact rest
  | cons m members ih => exact .cons m.1 (.same m.2) ih

/-- Why a document cannot be written, if it cannot: then it has a value under the name that cannot
be written either, since the other document can. -/
def IsFaultOf (allowed : Json → Prop) (fault : Option JsonFault) : Prop :=
  fault = none ∨ ∃ v, allowed v ∧ v.firstFault? = fault

theorem IsFaultOf.or {fault fault' : Option JsonFault} (first : IsFaultOf allowed fault)
    (rest : IsFaultOf allowed fault') : IsFaultOf allowed (fault.or fault') := by
  cases fault with
  | none => exact rest
  | some f => exact first

mutual

theorem AgreeOutside.isFaultOf : ∀ {j j' : Json}, AgreeOutside name allowed j j' →
    j.firstFault? = none → IsFaultOf allowed j'.firstFault?
  | _, _, .same _, sound => .inl sound
  | _, _, .array inner, sound => by
    rw [firstFault?] at sound ⊢
    exact inner.isFaultOf sound
  | _, _, .object inner, sound => by
    rw [firstFault?] at sound ⊢
    exact inner.isFaultOf sound

theorem AgreeAll.isFaultOf : ∀ {items items' : List Json}, AgreeAll name allowed items items' →
    firstFaultIn? items = none → IsFaultOf allowed (firstFaultIn? items')
  | _, _, .nil, sound => .inl sound
  | _, _, .cons first rest, sound => by
    rw [firstFaultIn?, Option.or_eq_none_iff] at sound
    rw [firstFaultIn?]
    exact (first.isFaultOf sound.1).or (rest.isFaultOf sound.2)

theorem AgreeIn.isFaultOf : ∀ {members members' : List (Text × Json)},
    AgreeIn name allowed members members' → firstFaultOf? members = none →
      IsFaultOf allowed (firstFaultOf? members')
  | _, _, .nil, sound => .inl sound
  | _, _, .cons _ first rest, sound => by
    rw [firstFaultOf?, Option.or_eq_none_iff] at sound
    rw [firstFaultOf?]
    exact (first.isFaultOf sound.1).or (rest.isFaultOf sound.2)
  | _, _, .free _ new rest, sound => by
    rw [firstFaultOf?, Option.or_eq_none_iff] at sound
    rw [firstFaultOf?]
    exact .or (.inr ⟨_, new, rfl⟩) (rest.isFaultOf sound.2)

end

/-- A value that can be written unless it is a number that is too long for that. -/
def IsSoundOrLong (j : Json) : Prop := j.firstFault? = none ∨ j.firstFault? = some .tooLong

end Json

namespace DebugJson

open Json

variable {c : Recoding} {g : Graph} {v : Value} {allowed : Json → Prop} {fails : Prop}
  {j : Json} {js : List Json} {k : PortKey}

/-- What a document shows of an identity is allowed, or there is nothing to be shown. -/
def Shows (allowed : Json → Prop) (fails : Prop) (v : Value) : Prop :=
  (∃ shown, identityValue v = .ok shown ∧ allowed (.ofValue shown)) ∨
    fails ∧ identityValue v = .error .tooLongToWrite

theorem shows_of_isWritable (writable : v.isWritable = true) : Shows IsSound False v := by
  rw [Shows, identityValue]
  split
  · next shown => exact .inl ⟨v, rfl, (isSound_ofValue_iff shown).mpr writable⟩
  · exact .inl ⟨_, rfl, by simp [IsSound, firstFault?]⟩

theorem shows_any (v : Value) : Shows IsSoundOrLong True v := by
  by_cases writable : v.isWritable = true
  · rcases shows_of_isWritable writable with ⟨shown, found, sound⟩ | absurd
    · exact .inl ⟨shown, found, .inl sound⟩
    · exact absurd.1.elim
  · rw [Shows, identityValue]
    split
    · next shown => exact .inl ⟨v, rfl, .inr ((faultUnless_shown shown).2 writable)⟩
    · exact .inr ⟨trivial, rfl⟩

theorem isWritable_of_shows {shown : Value} (found : identityValue v = .ok shown)
    (sound : (ofValue shown).IsSound) : v.isWritable = true := by
  rw [identityValue] at found
  split at found
  · next asIs =>
    cases found
    exact (isSound_ofValue_iff asIs).mp sound
  · split at found
    · next writable => exact writable
    · cases found

/-- A step on another graph gives what agrees with the given result, or there is nothing to be
shown. -/
def Follows {α : Type} (agree : α → α → Prop) (fails : Prop) (a : α) (r : Except Error α) : Prop :=
  (∃ a', r = .ok a' ∧ agree a a') ∨ fails ∧ r = .error .tooLongToWrite

theorem Follows.bind {α β : Type} {agree : α → α → Prop} {agree' : β → β → Prop} {a : α} {b : β}
    {r : Except Error α} {next : α → Except Error β} (first : Follows agree fails a r)
    (later : ∀ a', agree a a' → Follows agree' fails b (next a')) :
    Follows agree' fails b (r >>= next) := by
  rcases first with ⟨a', rfl, agrees⟩ | ⟨may, rfl⟩
  · exact later a' agrees
  · exact .inr ⟨may, rfl⟩

theorem follows_mapM {α : Type} {f f' : α → Except Error Json} {items : List α}
    (each : ∀ a ∈ items, ∀ j, f a = .ok j →
      Follows (AgreeOutside "interface" allowed) fails j (f' a))
    (done : items.mapM f = .ok js) :
    Follows (AgreeAll "interface" allowed) fails js (items.mapM f') := by
  induction items generalizing js with
  | nil =>
    cases done
    exact .inl ⟨[], rfl, .nil⟩
  | cons a items ih =>
    rw [List.forall_mem_cons] at each
    rw [List.mapM_cons] at done ⊢
    obtain ⟨j, first, done⟩ := exists_of_bind_ok done
    obtain ⟨js, rest, done⟩ := exists_of_bind_ok done
    cases done
    exact (each.1 j first).bind fun j' agrees => (ih each.2 rest).bind fun js' agree =>
      .inl ⟨j' :: js', rfl, .cons agrees agree⟩

theorem follows_port (shows : Shows allowed fails (c.apply (g.port k).identity))
    (drawn : port g k = .ok j) :
    Follows (AgreeOutside "interface" allowed) fails j (port (g.recoded c) k) := by
  obtain ⟨members, found, drawn⟩ := exists_of_bind_ok drawn
  obtain ⟨extras, found', drawn⟩ := exists_of_bind_ok drawn
  cases drawn
  obtain ⟨shown, -, found'⟩ := exists_of_bind_ok found'
  cases found'
  rw [port, ElkJson.portMembers_recoded, found, portExtras, Graph.port_recoded]
  rcases shows with ⟨shown', found', new⟩ | ⟨may, failed⟩
  · have identity : identityValue ((g.port k).recoded c).identity = .ok shown' := found'
    rw [identity]
    refine .inl ⟨_, rfl, .object (.after members ?_)⟩
    exact .cons "type" (.same _) (.cons "input" (.same _) (.free _ new (.refl _)))
  · have identity : identityValue ((g.port k).recoded c).identity = .error .tooLongToWrite := failed
    rw [identity]
    exact .inr ⟨may, rfl⟩

mutual

theorem follows_draw : ∀ (b : Block) {j : Json},
    (∀ p ∈ b.allPorts, Shows allowed fails (c.apply (g.port p).identity)) →
      style.draw g b = .ok j →
        Follows (AgreeOutside "interface" allowed) fails j (style.draw (g.recoded c) b)
  | .mk k ports children wires last, j, shows, drawn => by
    rw [Block.allPorts, List.forall_mem_append] at shows
    obtain ⟨ps, js, ws, found, inner, joined, rfl⟩ := JsonStyle.exists_of_draw drawn
    rw [JsonStyle.draw]
    have joined' : wires.mapM (style.wire (g.recoded c)) = .ok ws :=
      (congrArg wires.mapM (ElkJson.wire_recoded c g)).trans joined
    have owned := follows_mapM (fun p hp j => follows_port (c := c) (j := j) (shows.1 p hp)) found
    refine owned.bind fun ps' owns => ?_
    refine (follows_drawAll children shows.2 inner).bind fun js' has => ?_
    rw [joined']
    refine .inl ⟨_, rfl, ?_⟩
    have node (ports children : List Json) : style.node (g.recoded c) k ports children ws last =
        style.node g k ports children ws last := by
      change Json.object (ElkJson.nodeMembers (g.recoded c) k ports children ws ++ _) = _
      rw [ElkJson.nodeMembers_recoded]
      rfl
    rw [node]
    exact .object (.cons "id" (.same _) (.cons "ports" (.array owns) (.cons "children" (.array has)
      (.refl _))))

theorem follows_drawAll : ∀ (bs : List Block) {js : List Json},
    (∀ p ∈ Block.allPortsOf bs, Shows allowed fails (c.apply (g.port p).identity)) →
      style.drawAll g bs = .ok js →
        Follows (AgreeAll "interface" allowed) fails js (style.drawAll (g.recoded c) bs)
  | [], js, _, drawn => by
    cases drawn
    exact .inl ⟨[], rfl, .nil⟩
  | b :: bs, js, shows, drawn => by
    rw [Block.allPortsOf, List.forall_mem_append] at shows
    obtain ⟨j, js, first, rest, rfl⟩ := JsonStyle.exists_of_drawAll drawn
    rw [JsonStyle.drawAll]
    exact (follows_draw b shows.1 first).bind fun j' agrees =>
      (follows_drawAll bs shows.2 rest).bind fun js' agree =>
        .inl ⟨j' :: js', rfl, .cons agrees agree⟩

end

theorem firstFaultOf?_eq_none {members : List (Text × Json)} (sound : firstFaultOf? members = none)
    (name : Text) (member : (name, j) ∈ members) : j.IsSound := by
  induction members with
  | nil => cases member
  | cons first members ih =>
    obtain ⟨n, first⟩ := first
    rw [firstFaultOf?, Option.or_eq_none_iff] at sound
    rcases List.mem_cons.mp member with same | later
    · cases same
      exact sound.1
    · exact ih sound.2 later

theorem isWritable_of_port (drawn : port g k = .ok j) (sound : j.IsSound) :
    (g.port k).identity.isWritable = true := by
  obtain ⟨members, -, drawn⟩ := exists_of_bind_ok drawn
  obtain ⟨extras, added, drawn⟩ := exists_of_bind_ok drawn
  cases drawn
  obtain ⟨shown, found, added⟩ := exists_of_bind_ok added
  cases added
  rw [IsSound, firstFault?] at sound
  refine isWritable_of_shows found (firstFaultOf?_eq_none sound "interface" ?_)
  simp

theorem isWritable_of_ports {ps : List PortKey}
    (drawn : List.Forall₂ (fun p j => port g p = .ok j) ps js) (sound : firstFaultIn? js = none) :
    ∀ p ∈ ps, (g.port p).identity.isWritable = true := by
  induction drawn with
  | nil => exact List.forall_mem_nil _
  | cons first _ ih =>
    rw [firstFaultIn?, Option.or_eq_none_iff] at sound
    exact List.forall_mem_cons.mpr ⟨isWritable_of_port first sound.1, ih sound.2⟩

mutual

theorem isWritable_of_draw : ∀ (b : Block) {j : Json}, style.draw g b = .ok j → j.IsSound →
    ∀ p ∈ b.allPorts, (g.port p).identity.isWritable = true
  | .mk k ports children wires last, j, drawn, sound => by
    obtain ⟨ps, js, ws, found, inner, -, rfl⟩ := JsonStyle.exists_of_draw drawn
    have members : firstFaultOf? (ElkJson.nodeMembers g k ps js ws ++ nodeExtras g k) = none := by
      rw [← firstFault?]
      exact sound
    have owned := firstFaultOf?_eq_none members "ports" (j := .array ps)
      (.tail _ (.head _))
    have below := firstFaultOf?_eq_none members "children" (j := .array js)
      (.tail _ (.tail _ (.head _)))
    rw [IsSound, firstFault?] at owned below
    rw [Block.allPorts, List.forall_mem_append]
    exact ⟨isWritable_of_ports (forall₂_of_mapM found) owned,
      isWritable_of_drawAll children inner below⟩

theorem isWritable_of_drawAll : ∀ (bs : List Block) {js : List Json},
    style.drawAll g bs = .ok js → firstFaultIn? js = none →
      ∀ p ∈ Block.allPortsOf bs, (g.port p).identity.isWritable = true
  | [], _, _, _ => nofun
  | b :: bs, js, drawn, sound => by
    obtain ⟨j, js, first, rest, rfl⟩ := JsonStyle.exists_of_drawAll drawn
    rw [firstFaultIn?, Option.or_eq_none_iff] at sound
    rw [Block.allPortsOf, List.forall_mem_append]
    exact ⟨isWritable_of_draw b first sound.1, isWritable_of_drawAll bs rest sound.2⟩

end

end DebugJson

end Schematic
