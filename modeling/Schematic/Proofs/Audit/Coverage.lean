import Schematic.Proofs.Audit.Shape
import Schematic.Proofs.Graph.Depth
import Schematic.Proofs.Graph.Keys
import Schematic.Proofs.PassThrough.Exactness

/-! What the validator finds on the drivers and receivers of all bindings. The way that it looks at
is the way of the tree, the component of least depth on it is where it turns, and each other
component inside it has a port of the binding or is reported. On a graph where whatever a binding
crosses owns a port of it, every driver and receiver is covered. -/

namespace Schematic

section Lists

variable {α β : Type} {f : α → Except Error β} {xs : List α}

theorem mapM_eq_error {e : Error} (each : ∀ x ∈ xs, (∃ y, f x = .ok y) ∨ f x = .error e)
    (bad : ∃ x ∈ xs, f x = .error e) : xs.mapM f = .error e := by
  induction xs with
  | nil =>
    obtain ⟨x, hx, -⟩ := bad
    cases hx
  | cons x xs ih =>
    rw [List.mapM_cons]
    rcases each x List.mem_cons_self with ⟨y, fine⟩ | failed
    · have later : ∃ z ∈ xs, f z = .error e := by
        obtain ⟨z, hz, failed⟩ := bad
        rcases List.mem_cons.mp hz with rfl | hz
        · rw [fine] at failed
          cases failed
        · exact ⟨z, hz, failed⟩
      rw [fine, ih (fun z hz => each z (List.mem_cons_of_mem _ hz)) later]
      rfl
    · rw [failed]
      rfl

end Lists

namespace Graph

/-- Whether each component that a binding crosses owns a port of it. -/
def IsClosed (g : Graph) : Prop :=
  ∀ μ ≠ Meaning.null, ∀ c, g.Crossed (g.carriers μ) c → (g.carriers μ).owns c

def IsOneSided (g : Graph) (b : Binding) : Prop :=
  1 < b.ports.length ∧ ((b.drivers g).length = 0 ∨ (b.receivers g).length = 0)

def CanWarn (g : Graph) : Prop :=
  ∀ bs, g.bindings = .ok bs → ∀ b ∈ bs, g.IsOneSided b → b.identity.isWritable = true

variable {g h : Graph} {a b c k m t : ComponentKey} {d r : PortKey} {path : List ComponentKey}
  {identity : Value} {added : List Demand}

theorem Inferred.isClosed (run : g.Inferred h added) (hg : g.Coherent) : h.IsClosed :=
  fun _ bound _ crossed => run.closed hg bound crossed

theorem Links.crossed (links : g.Links d r a b) (hg : g.Coherent) (crosses : g.Crosses c a b) :
    g.Crossed (g.carriers (g.bond r)) c := by
  obtain ⟨drives, receives⟩ := links.carried
  obtain ⟨notStart, notGoal, apart⟩ := (hg.crosses_iff links.start links.goal).mp crosses
  by_cases above : g.Encloses c a
  · exact .inl ⟨a, b, drives, receives, above, notStart, fun other =>
      apart (iff_of_true above other)⟩
  · have other : g.Encloses c b := by
      by_contra neither
      exact apart (iff_of_false above neither)
    exact .inr ⟨b, a, receives, drives, other, notGoal, above⟩

theorem IsWay.mem_roster (way : g.IsWay a b path) (hg : g.Coherent) (ha : a ∈ g.roster)
    (hb : b ∈ g.roster) (hm : m ∈ path) : m ∈ g.roster := by
  rcases (hg.mem_way way).mp hm with outer | outer | near
  · exact outer.1.mem ha
  · exact outer.1.mem hb
  · exact near.1.mem ha

theorem Coherent.turn_encloses (hg : g.Coherent) (way : g.IsWay a b path)
    (turn : g.IsNearestCommon t a b) (hm : m ∈ path) : g.Encloses t m := by
  rcases (hg.mem_way way).mp hm with outer | outer | near
  · rcases hg.encloses_total turn.1 outer.1 with above | below
    · exact above
    · exact absurd (below.trans turn.2.1) outer.2
  · rcases hg.encloses_total turn.2.1 outer.1 with above | below
    · exact above
    · exact absurd (below.trans turn.1) outer.2
  · exact hg.turn_unique turn near ▸ .refl t

end Graph

namespace Audit

variable {g : Graph} {a b k t : ComponentKey} {d r : PortKey} {path : List ComponentKey}
  {identity : Value} {binding : Binding}

theorem turningPoint?_eq (hg : g.Coherent) (way : g.IsWay a b path)
    (turn : g.IsNearestCommon t a b) : turningPoint? path (path.map g.level) = some t := by
  have here := hg.turn_mem way turn
  have least : (path.map g.level).min? = some (g.level t) := by
    refine List.min?_eq_some_iff.mpr ⟨List.mem_map_of_mem here, fun n hn => ?_⟩
    obtain ⟨m, hm, rfl⟩ := List.mem_map.mp hn
    exact hg.level_le (hg.turn_encloses way turn hm)
  have only : path.find? (fun m => g.level m == g.level t) = some t := by
    have found : (path.find? fun m => g.level m == g.level t).isSome = true :=
      List.find?_isSome.mpr ⟨t, here, beq_self_eq_true _⟩
    obtain ⟨m, hm⟩ := Option.isSome_iff_exists.mp found
    have same : g.level m = g.level t := by simpa using List.find?_some hm
    have below := hg.turn_encloses way turn (List.mem_of_find?_eq_some hm)
    by_cases other : t = m
    · rw [hm, other]
    · have deeper := hg.level_lt below other
      omega
  have paired : path.zip (path.map g.level) = path.map fun m => (m, g.level m) := by
    simpa using List.zip_map' (f := id) (g := g.level) (l := path)
  rw [turningPoint?, least]
  dsimp only
  rw [paired, List.find?_map]
  have pred : ((fun x : ComponentKey × Nat => x.2 == g.level t) ∘ fun m => (m, g.level m)) =
      fun m => g.level m == g.level t := rfl
  rw [pred, only]
  rfl

def wayOf (g : Graph) (d r : PortKey) : List ComponentKey :=
  match g.owner d, g.owner r with
  | .ok start, .ok goal => (g.pathBetween start goal).toOption.getD []
  | _, _ => []

def lacking (g : Graph) (d r : PortKey) : List ComponentKey :=
  uncovered g (g.port r).identity (wayOf g d r) ((wayOf g d r).map g.level)

def subjectOf (g : Graph) (d r : PortKey) : Value :=
  .text ((g.port d).name.plain ++ " -> " ++ (g.port r).name.plain)

def cover (g : Graph) (d r : PortKey) : Finding where
  severity := .pass
  category := .text "path_coverage"
  subject := subjectOf g d r
  message := .text ("Covered over " ++ toString (wayOf g d r).length ++ " components")

def gap (g : Graph) (d r : PortKey) : Finding where
  severity := .fail
  category := .text "path_coverage"
  subject := subjectOf g d r
  message := .text ("No port for the binding on: " ++
    Text.intercalate ", " ((lacking g d r).map fun k => (g.component k).name.text?.getD .empty))
  details := .mapping
    [(.text "missing", .list ((lacking g d r).map fun k => (g.component k).name))]

def verdict (g : Graph) (d r : PortKey) : Finding :=
  if (lacking g d r).isEmpty then cover g d r else gap g d r

def CanName (g : Graph) (d r : PortKey) : Prop := ∀ k ∈ lacking g d r, (g.component k).name.IsText

theorem wayOf_eq (hg : g.Coherent) (links : g.Links d r a b) :
    g.pathBetween a b = .ok (wayOf g d r) ∧ g.IsWay a b (wayOf g d r) := by
  obtain ⟨path, found, way⟩ := hg.pathBetween_eq links.start links.goal
  have same : wayOf g d r = path := by
    rw [wayOf, hg.owner_eq links.start links.drives, hg.owner_eq links.goal links.receives]
    exact congrArg (fun found => found.toOption.getD []) found
  rw [same]
  exact ⟨found, way⟩

/-- The components that lack a port are those that are crossed and are not found to have one. -/
theorem mem_lacking (hg : g.Coherent) (links : g.Links d r a b) :
    k ∈ lacking g d r ↔ g.Crosses k a b ∧ g.portFor k (g.port r).identity = none := by
  obtain ⟨-, way⟩ := wayOf_eq hg links
  obtain ⟨trail, route⟩ := hg.exists_route links.start links.goal
  obtain ⟨t, turn⟩ := hg.exists_nearest route
  have turns : some k ≠ some t ↔ ¬ g.IsNearestCommon k a b := by
    refine not_congr ⟨fun same => Option.some.inj same ▸ turn, fun near => ?_⟩
    rw [hg.turn_unique near turn]
  have inner : g.Crosses k a b ↔
      k ∈ (wayOf g d r).tail.dropLast ∧ ¬ g.IsNearestCommon k a b := by
    refine ⟨?_, fun inside => ⟨_, way, inside⟩⟩
    rintro ⟨path, way', inside⟩
    rw [hg.way_unique way way']
    exact inside
  rw [lacking, uncovered, List.mem_filter, turningPoint?_eq hg way turn, List.drop_one,
    Bool.and_eq_true, bne_iff_ne, Option.isNone_iff_eq_none, turns, inner, and_assoc]

theorem joinNames_eq {names : List Value} (texts : ∀ v ∈ names, v.IsText) :
    joinNames names = .ok (Text.intercalate ", " (names.map fun v => v.text?.getD .empty)) := by
  have each : names.mapM Value.text? = some (names.map fun v => v.text?.getD .empty) := by
    induction names with
    | nil => rfl
    | cons v vs ih =>
      rw [List.forall_mem_cons] at texts
      obtain ⟨text, known⟩ := texts.1
      rw [List.mapM_cons, known, ih texts.2, List.map_cons, known]
      rfl
  rw [joinNames, each]

theorem checkPair_eq (hg : g.Coherent) (ord : g.Ordinary) (names : g.HasPortNames)
    (spelled : CanName g d r) (joins : g.Joins d r) (key : identity.isHashable = true)
    (same : identity.meaning = g.bond r) : checkPair g identity d r = .ok [verdict g d r] := by
  obtain ⟨a, b, links⟩ := joins.exists_links hg
  obtain ⟨found, way⟩ := wayOf_eq hg links
  have depths : (wayOf g d r).mapM g.depth = .ok ((wayOf g d r).map g.level) :=
    mapM_eq_ok fun k hk => hg.depth_level (way.mem_roster hg links.start links.goal hk)
  have some : (wayOf g d r).isEmpty = false := by
    obtain ⟨rest, first⟩ := List.head?_eq_some_iff.mp way.first
    rw [first]
    rfl
  have source : (g.port d).name.written = .ok (g.port d).name.plain :=
    if_pos (names a links.start _ (List.mem_map_of_mem links.drives))
  have target : (g.port r).name.written = .ok (g.port r).name.plain :=
    if_pos (names b links.goal _ (List.mem_map_of_mem links.receives))
  have free : uncovered g identity (wayOf g d r) ((wayOf g d r).map g.level) = lacking g d r := by
    refine List.filter_congr fun k hk => ?_
    rw [List.drop_one] at hk
    have inside : k ∈ g.roster := way.mem_roster hg links.start links.goal
      (List.mem_of_mem_tail (List.dropLast_subset _ hk))
    rw [ord.isKeyed.portFor_eq inside key (ord.isKeyed.ofPort links.goal links.receives) same]
  have joined : joinNames ((lacking g d r).map fun k => (g.component k).name) =
      .ok (Text.intercalate ", "
        ((lacking g d r).map fun k => (g.component k).name.text?.getD .empty)) := by
    rw [joinNames_eq (List.forall_mem_map.mpr spelled), List.map_map]
    rfl
  rw [verdict]
  cases none : (lacking g d r).isEmpty <;>
    simp [checkPair, hg.owner_eq links.start links.drives, hg.owner_eq links.goal links.receives,
      found, some, depths, source, target, free, none, joined, cover, gap, subjectOf, bind,
      Except.bind, pure, Except.pure]

instance : Decidable (g.IsOneSided binding) := inferInstanceAs (Decidable (_ ∧ _))

def caution (g : Graph) (b : Binding) : Finding where
  severity := .warning
  category := .text "binding"
  subject := (b.ports.head?.map fun p => (g.port p).name).getD .null
  message := .text ("Binding " ++ b.identity.quoted ++ " has " ++ toString (b.drivers g).length ++
    " drivers and " ++ toString (b.receivers g).length ++
    " receivers; nothing will be drawn for it.")

def cautions (g : Graph) (b : Binding) : List Finding :=
  if g.IsOneSided b then [caution g b] else []

theorem oneSided_eq (writable : g.IsOneSided binding → binding.identity.isWritable = true) :
    oneSided g binding = .ok (cautions g binding) := by
  obtain ⟨identity, ports⟩ := binding
  rw [oneSided, cautions]
  by_cases lone : g.IsOneSided ⟨identity, ports⟩
  · rw [if_pos lone]
    refine (if_pos lone).trans ((if_pos (writable lone)).trans ?_)
    cases ports <;> rfl
  · rw [if_neg lone]
    exact if_neg lone

theorem checkBinding_eq (hg : g.Coherent) (ord : g.Ordinary) (names : g.HasPortNames)
    (spelled : ∀ d r, g.Joins d r → CanName g d r) (key : binding.identity.isHashable = true)
    (pairs : ∀ d r, (d, r) ∈ binding.pairs g →
      g.Joins d r ∧ binding.identity.meaning = g.bond r)
    (writable : g.IsOneSided binding → binding.identity.isWritable = true) :
    checkBinding g binding =
      .ok (cautions g binding ++ (binding.pairs g).map fun x => verdict g x.1 x.2) := by
  have each : (binding.pairs g).mapM (fun x : PortKey × PortKey =>
      checkPair g binding.identity x.1 x.2) =
        .ok ((binding.pairs g).map fun x => [verdict g x.1 x.2]) := mapM_eq_ok fun x hx => by
    obtain ⟨joins, same⟩ := pairs x.1 x.2 hx
    exact checkPair_eq hg ord names (spelled x.1 x.2 joins) joins key same
  have flat : ((binding.pairs g).map fun x => [verdict g x.1 x.2]).flatten =
      (binding.pairs g).map fun x => verdict g x.1 x.2 := by
    rw [← List.flatMap_def, ← List.map_eq_flatMap]
  simp [checkBinding, oneSided_eq writable, each, flat, bind, Except.bind, pure, Except.pure]

end Audit

end Schematic
