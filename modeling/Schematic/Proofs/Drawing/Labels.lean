import Schematic.Proofs.Drawing.Readback

/-! Statements of a flowchart are read back, whatever its components and ports are called. What they
are called stands in quotes and can hold neither a quote nor the end of a line. What an edge is
called stands between bars instead, and it keeps the bars that it has. -/

namespace Schematic.Mermaid

open ElkText (newline isBlank not_mem_repr flat_append)

variable {s : Statement} {label : Text}

def quote : CodePoint := .ofChar '"'

def bar : CodePoint := .ofChar '|'

def inside? (start ending : Text) (ps : List CodePoint) : Option (List CodePoint) :=
  let rest := ps.drop start.points.length
  if start.points.isPrefixOf ps && ending.points.isSuffixOf rest then
    some (rest.take (rest.length - ending.points.length))
  else none

def readId? (ps : List CodePoint) : Option Nat :=
  (ps.mapM CodePoint.toChar?).bind fun cs =>
    if cs ≠ [] ∧ cs.all Char.isDigit then some (Nat.ofDigitChars 10 cs 0) else none

def readIdText? (ps : List CodePoint) : Option Text := (readId? ps).map fun n => (toString n : Text)

def readQuoted? (front : List CodePoint) (label : Text) (back : List CodePoint) :
    Option Statement :=
  if back = ("]" : Text).points then
    match inside? "subgraph c" "[" front with
    | some id => (readId? id).map (.subgraph · label)
    | none => ((inside? "c" "[" front).bind readId?).map (.component · label)
  else if back = ("])" : Text).points then
    ((inside? "p" "([" front).bind readIdText?).map (.port · .input label)
  else if back = ("]]" : Text).points then
    ((inside? "p" "[[" front).bind readIdText?).map (.port · .output label)
  else none

def readEdge? (front : List CodePoint) (label : Text) (back : List CodePoint) :
    Option Statement := do
  let target ← (inside? " p" "" back).bind readIdText?
  match inside? "p" " -.->" front with
  | some id => (readIdText? id).map (.edge · .parentChild label target)
  | none => ((inside? "p" " -->" front).bind readIdText?).map (.edge · .childChild label target)

def readWords? (ps : List CodePoint) : Option Statement :=
  match inside? "class " " synthesized" ps with
  | some ids =>
    ((ids.splitOn (.ofChar ',')).mapM fun id => (inside? "p" "" id).bind readIdText?).map .styled
  | none =>
    [.rule, .blank, .graph "LR", .runs "LR", .close, .styleComment, .styleClass].find?
      fun s => s.text.points == ps

/-- The statement of a line, if the line is one statement. A title may hold anything; elsewhere two
quotes or two bars stand around a label. -/
def readStatement? (ps : List CodePoint) : Option Statement :=
  match inside? "title: " "" ps with
  | some title => some (.title ⟨title⟩)
  | none =>
    match ps.splitOn quote, ps.splitOn bar with
    | [front, label, back], _ => readQuoted? front ⟨label⟩ back
    | [_], [front, label, back] => readEdge? front ⟨label⟩ back
    | [_], [_] => readWords? ps
    | _, _ => none

/-- An edge whose label holds a bar, so that more than two stand on its line. -/
def Statement.isTorn : Statement → Bool
  | edge _ _ label _ => label.holds '|'
  | _ => false

theorem inside?_eq (start ending : Text) (ps : List CodePoint) :
    inside? start ending (start.points ++ (ps ++ ending.points)) = some ps := by
  simp [inside?]

/-- The same with no ending. -/
theorem inside?_start (start : Text) (ps : List CodePoint) :
    inside? start "" (start.points ++ ps) = some ps := by
  have whole := inside?_eq start "" ps
  have nothing : ("" : Text).points = [] := rfl
  rwa [nothing, List.append_nil] at whole

theorem readId?_repr (n : Nat) : readId? (toString n : Text).points = some n := by
  have chars : (toString n : Text).points.mapM CodePoint.toChar? = some (Nat.toDigits 10 n) := by
    obtain ⟨cs, found, same⟩ := Option.map_eq_some_iff.mp (Text.toString?_ofString (toString n))
    rw [found, ← toList_natText, ← same, String.toList_ofList]
  have all : (Nat.toDigits 10 n).all Char.isDigit = true :=
    List.all_eq_true.mpr (areDigits_toDigits n)
  rw [readId?, chars, Option.bind_some, if_pos ⟨Nat.toDigits_ne_nil, all⟩,
    Nat.ofDigitChars_ten_toDigits]

theorem readIdText?_repr (n : Nat) :
    readIdText? (toString n : Text).points = some (toString n : Text) := by
  rw [readIdText?, readId?_repr, Option.map_some]

/-- Three parts between two separators. -/
theorem splitOn_between {p : CodePoint} {front back : List CodePoint} (label : List CodePoint)
    (before : p ∉ front) (behind : p ∉ back) :
    (front ++ p :: (label ++ p :: back)).splitOn p = front :: (label.splitOn p ++ [back]) := by
  rw [List.splitOn_append_cons_self_of_not_mem before, List.splitOn_append_cons_self,
    List.splitOn_eq_singleton behind]

structure IsCalm (label : Text) : Prop where
  unquoted : quote ∉ label.points
  flat : newline ∉ label.points

theorem isCalm_sanitise (t : Text) : IsCalm (sanitise t) := by
  constructor <;>
  · intro listed
    obtain ⟨p, -, same⟩ := List.mem_map.mp listed
    unfold sanitisePoint at same
    split_ifs at same with quoted ends
    · cases same
    · cases same
    · first | exact quoted same | exact ends same

/-- Bars are left as they are, and none is added. -/
theorem holds_sanitise (t : Text) : (sanitise t).holds '|' = t.holds '|' := by
  have point (p : CodePoint) : sanitisePoint p = .ofChar '|' ↔ p = .ofChar '|' := by
    unfold sanitisePoint
    split_ifs with quoted ends
    · exact iff_of_false (by decide) (quoted ▸ by decide)
    · exact iff_of_false (by decide) (ends ▸ by decide)
    · rfl
  rw [Text.holds, Text.holds, Bool.eq_iff_iff, List.contains_iff_mem, List.contains_iff_mem]
  simp only [sanitise, List.mem_map, point, exists_eq_right]

/-- Digits hold no separator. -/
theorem not_mem_around {c : Char} (other : c.isDigit = false) (id : Nat) {start ending : Text}
    (before : CodePoint.ofChar c ∉ start.points) (behind : CodePoint.ofChar c ∉ ending.points) :
    CodePoint.ofChar c ∉ start.points ++ ((toString id : Text).points ++ ending.points) :=
  List.not_mem_append before (List.not_mem_append (not_mem_repr other id) behind)

/-- An identifier between two words, and behind it a label in quotes. -/
theorem readStatement?_quoted {start ending back : Text} (id : Nat) (calm : IsCalm label)
    (begins : quote ∉ start.points) (ends : quote ∉ ending.points) (behind : quote ∉ back.points)
    {ps : List CodePoint} (spelled : ps = start.points ++
      ((toString id : Text).points ++ ending.points) ++
        quote :: (label.points ++ quote :: back.points))
    (untitled : inside? "title: " "" ps = none) : readStatement? ps =
      readQuoted? (start.points ++ ((toString id : Text).points ++ ending.points)) label
        back.points := by
  have before : quote ∉ start.points ++ ((toString id : Text).points ++ ending.points) :=
    not_mem_around rfl id begins ends
  rw [readStatement?, untitled, spelled, splitOn_between _ before behind,
    List.splitOn_eq_singleton calm.unquoted]
  rfl

theorem readStatement?_subgraph (id : Nat) (calm : IsCalm label) :
    readStatement? (Statement.subgraph id label).text.points = some (.subgraph id label) := by
  have spelled : (Statement.subgraph id label).text.points =
      ("subgraph c" : Text).points ++ ((toString id : Text).points ++ ("[" : Text).points) ++
        quote :: (label.points ++ quote :: ("]" : Text).points) := by
    simp [Statement.text, quote]
  rw [readStatement?_quoted id calm (by decide) (by decide) (by decide) spelled (spelled ▸ rfl),
    readQuoted?, if_pos rfl, inside?_eq]
  simp only [readId?_repr, Option.map_some]

theorem readStatement?_component (id : Nat) (calm : IsCalm label) :
    readStatement? (Statement.component id label).text.points = some (.component id label) := by
  have spelled : (Statement.component id label).text.points =
      ("c" : Text).points ++ ((toString id : Text).points ++ ("[" : Text).points) ++
        quote :: (label.points ++ quote :: ("]" : Text).points) := by
    simp [Statement.text, quote]
  have other : inside? "subgraph c" "[" (("c" : Text).points ++
      ((toString id : Text).points ++ ("[" : Text).points)) = none := rfl
  rw [readStatement?_quoted id calm (by decide) (by decide) (by decide) spelled (spelled ▸ rfl),
    readQuoted?, if_pos rfl, other, inside?_eq]
  simp only [Option.bind_some, readId?_repr, Option.map_some]

theorem readStatement?_port (id : Nat) (direction : Direction) (calm : IsCalm label) :
    readStatement? (Statement.port (toString id : Text) direction label).text.points =
      some (.port (toString id : Text) direction label) := by
  cases direction with
  | input =>
    have spelled : (Statement.port (toString id : Text) .input label).text.points =
        ("p" : Text).points ++ ((toString id : Text).points ++ ("([" : Text).points) ++
          quote :: (label.points ++ quote :: ("])" : Text).points) := by
      simp [Statement.text, quote]
    rw [readStatement?_quoted id calm (by decide) (by decide) (by decide) spelled (spelled ▸ rfl),
      readQuoted?, if_neg (by decide), if_pos rfl, inside?_eq]
    simp only [Option.bind_some, readIdText?_repr, Option.map_some]
  | output =>
    have spelled : (Statement.port (toString id : Text) .output label).text.points =
        ("p" : Text).points ++ ((toString id : Text).points ++ ("[[" : Text).points) ++
          quote :: (label.points ++ quote :: ("]]" : Text).points) := by
      simp [Statement.text, quote]
    rw [readStatement?_quoted id calm (by decide) (by decide) (by decide) spelled (spelled ▸ rfl),
      readQuoted?, if_neg (by decide), if_neg (by decide), if_pos rfl, inside?_eq]
    simp only [Option.bind_some, readIdText?_repr, Option.map_some]

def arrowText (kind : WireKind) : Text := " " ++ Statement.arrow kind

/-- The one arrow is not the ending of the other one. -/
theorem inside?_otherArrow (source : Nat) :
    inside? "p" " -.->" (("p" : Text).points ++
      ((toString source : Text).points ++ (" -->" : Text).points)) = none := by
  have ends : List.isSuffixOf (" -.->" : Text).points
      ((toString source : Text).points ++ (" -->" : Text).points) = false := by
    rw [Bool.eq_false_iff, ne_eq, List.isSuffixOf_iff_suffix]
    rintro ⟨front, same⟩
    have last := congrArg (fun ps => ps.reverse.take 3) same
    simp only [List.reverse_append, Text.points_ofString] at last
    exact absurd last (by decide : ¬ (" -.->" : Text).points.reverse.take 3 =
      (" -->" : Text).points.reverse.take 3)
  have rest : (("p" : Text).points ++ ((toString source : Text).points ++
      (" -->" : Text).points)).drop 1 = (toString source : Text).points ++ (" -->" : Text).points :=
    rfl
  have one : ("p" : Text).points.length = 1 := rfl
  simp only [inside?, one, rest, ends, Bool.and_false, Bool.false_eq_true, if_false]

theorem readEdge?_eq (source target : Nat) (kind : WireKind) (label : Text) :
    readEdge? (("p" : Text).points ++ ((toString source : Text).points ++ (arrowText kind).points))
        label ((" p" : Text).points ++ (toString target : Text).points) =
      some (.edge (toString source : Text) kind label (toString target : Text)) := by
  rw [readEdge?, inside?_start, Option.bind_some, readIdText?_repr]
  cases kind with
  | parentChild =>
    have arrow : (arrowText .parentChild).points = (" -.->" : Text).points := rfl
    rw [arrow, inside?_eq]
    simp only [Option.bind_eq_bind, Option.bind_some, readIdText?_repr, Option.map_some]
  | childChild =>
    have arrow : (arrowText .childChild).points = (" -->" : Text).points := rfl
    rw [arrow, inside?_otherArrow, inside?_eq]
    simp only [Option.bind_eq_bind, Option.bind_some, readIdText?_repr, Option.map_some]

/-- More than two separators. -/
theorem splitOn_of_mem {p : CodePoint} {ps : List CodePoint} (listed : p ∈ ps) :
    ∃ first second rest, ps.splitOn p = first :: second :: rest := by
  obtain ⟨first, later, rfl, before⟩ := List.eq_append_cons_of_mem listed
  obtain ⟨second, rest, same⟩ := List.exists_cons_of_ne_nil (List.splitOn_ne_nil p later)
  exact ⟨first, second, rest,
    by rw [List.splitOn_append_cons_self_of_not_mem before, same]⟩

/-- An edge is read back from its line unless its label holds a bar, which would end the label. -/
theorem readStatement?_edge (source target : Nat) (kind : WireKind) (calm : IsCalm label) :
    let s : Statement := .edge (toString source : Text) kind label (toString target : Text)
    readStatement? s.text.points = if s.isTorn then none else some s := by
  intro s
  have spelled : s.text.points =
      ("p" : Text).points ++ ((toString source : Text).points ++ (arrowText kind).points) ++
        bar :: (label.points ++
          bar :: ((" p" : Text).points ++ (toString target : Text).points)) := by
    simp [s, Statement.text, arrowText, bar]
  have arrow : bar ∉ (arrowText kind).points ∧ quote ∉ (arrowText kind).points := by
    cases kind <;> decide
  have before : bar ∉ ("p" : Text).points ++
      ((toString source : Text).points ++ (arrowText kind).points) :=
    not_mem_around rfl source (by decide) arrow.1
  have behind : bar ∉ (" p" : Text).points ++ (toString target : Text).points :=
    List.not_mem_append (by decide) (not_mem_repr rfl target)
  have unquoted : quote ∉ s.text.points := by
    have front : quote ∉ ("p" : Text).points ++
        ((toString source : Text).points ++ (arrowText kind).points) :=
      not_mem_around rfl source (by decide) arrow.2
    have digits : quote ∉ (toString target : Text).points := not_mem_repr rfl target
    have back := List.not_mem_append (by decide : quote ∉ (" p" : Text).points) digits
    rw [spelled]
    exact List.not_mem_append front (List.not_mem_cons_of_ne_of_not_mem (by decide)
      (List.not_mem_append calm.unquoted (List.not_mem_cons_of_ne_of_not_mem (by decide) back)))
  have other : inside? "title: " "" s.text.points = none := by
    rw [spelled]
    rfl
  have torn : s.isTorn = true ↔ bar ∈ label.points := List.contains_iff_mem
  rw [readStatement?, other, List.splitOn_eq_singleton unquoted, spelled,
    splitOn_between _ before behind]
  by_cases barred : bar ∈ label.points
  · obtain ⟨first, second, rest, same⟩ := splitOn_of_mem barred
    rw [if_pos (torn.mpr barred), same]
    cases rest <;> rfl
  · rw [if_neg (mt torn.mp barred), List.splitOn_eq_singleton barred]
    exact readEdge?_eq source target kind label

theorem readStatement?_title (title : Text) :
    readStatement? (Statement.title title).text.points = some (.title title) := by
  have spelled : (Statement.title title).text.points =
      ("title: " : Text).points ++ title.points := rfl
  rw [readStatement?, spelled, inside?_start]

theorem not_mem_intercalate {p : CodePoint} {between : List CodePoint}
    {parts : List (List CodePoint)} (apart : p ∉ between) (each : ∀ part ∈ parts, p ∉ part) :
    p ∉ between.intercalate parts := by
  induction parts with
  | nil => exact List.not_mem_nil
  | cons first parts ih =>
    rw [List.forall_mem_cons] at each
    cases parts with
    | nil => rw [List.intercalate_singleton]; exact each.1
    | cons second parts =>
      rw [List.intercalate_cons_cons]
      exact List.not_mem_append (List.not_mem_append each.1 apart) (ih each.2)

def IsNumeral (t : Text) : Prop := ∃ n : Nat, t = (toString n : Text)

section

variable {ids : List Text}

theorem text_styled (ids : List Text) : (Statement.styled ids).text.points =
    ("class " : Text).points ++
      ([CodePoint.ofChar ','].intercalate (ids.map fun id => ("p" : Text).points ++ id.points) ++
        (" synthesized" : Text).points) := by
  have parts : (Text.intercalate "," (ids.map fun id => "p" ++ id)).points =
      [CodePoint.ofChar ','].intercalate (ids.map fun id => ("p" : Text).points ++ id.points) := by
    rw [Text.intercalate, List.map_map]
    rfl
  rw [← parts, Statement.text, Text.append_assoc]
  rfl

theorem not_mem_parts {c : Char} (other : c.isDigit = false)
    (letter : CodePoint.ofChar c ∉ ("p" : Text).points) (numbers : ∀ id ∈ ids, IsNumeral id) :
    ∀ part ∈ ids.map (fun id => ("p" : Text).points ++ id.points), CodePoint.ofChar c ∉ part := by
  rw [List.forall_mem_map]
  intro id hid
  obtain ⟨n, rfl⟩ := numbers id hid
  exact List.not_mem_append letter (not_mem_repr other n)

theorem not_mem_styled {c : Char} (other : c.isDigit = false)
    (words : CodePoint.ofChar c ∉ ("class p, synthesized" : Text).points)
    (numbers : ∀ id ∈ ids, IsNumeral id) :
    CodePoint.ofChar c ∉ (Statement.styled ids).text.points := by
  have parted : ("class p, synthesized" : Text).points = ("class " : Text).points ++
      (("p" : Text).points ++ (("," : Text).points ++ (" synthesized" : Text).points)) := rfl
  rw [parted] at words
  simp only [List.mem_append (s := Text.points _), not_or] at words
  obtain ⟨start, letter, comma, ending⟩ := words
  rw [text_styled]
  exact List.not_mem_append start (List.not_mem_append
    (not_mem_intercalate comma (not_mem_parts other letter numbers)) ending)

theorem readStatement?_styled (listed : ids ≠ []) (numbers : ∀ id ∈ ids, IsNumeral id) :
    readStatement? (Statement.styled ids).text.points = some (.styled ids) := by
  have unquoted : quote ∉ (Statement.styled ids).text.points :=
    not_mem_styled rfl (by decide) numbers
  have unbarred : bar ∉ (Statement.styled ids).text.points :=
    not_mem_styled rfl (by decide) numbers
  have untitled : inside? "title: " "" (Statement.styled ids).text.points = none := by
    rw [text_styled]
    rfl
  have each : (ids.map fun id => ("p" : Text).points ++ id.points).mapM
      (fun id => (inside? "p" "" id).bind readIdText?) = some ids := by
    clear listed unquoted unbarred untitled
    induction ids with
    | nil => rfl
    | cons id ids ih =>
      rw [List.forall_mem_cons] at numbers
      obtain ⟨⟨n, rfl⟩, others⟩ := numbers
      rw [List.map_cons, List.mapM_cons, inside?_start, Option.bind_some, readIdText?_repr,
        ih others]
      rfl
  rw [readStatement?, untitled, List.splitOn_eq_singleton unquoted,
    List.splitOn_eq_singleton unbarred, readWords?, text_styled, inside?_eq]
  have parts : (ids.map fun id => ("p" : Text).points ++ id.points) ≠ [] := by simpa using listed
  have apart := not_mem_parts (c := ',') rfl (by decide) numbers
  simp only [List.splitOn_intercalate _ apart parts, each, Option.map_some]

end

/-- The statements without labels are read back. -/
theorem readStatement?_word {s : Statement} (listed : s ∈
    [Statement.rule, .blank, .graph "LR", .runs "LR", .close, .styleComment, .styleClass]) :
    readStatement? s.text.points = some s := by
  revert s
  decide

/-- What lets a statement be read back: calm labels, and identifiers that are numbers. -/
def Statement.IsSound : Statement → Prop
  | title text => newline ∉ text.points
  | graph way => way = "LR"
  | subgraph _ label => IsCalm label
  | runs way => way = "LR"
  | component _ label => IsCalm label
  | port id _ label => IsNumeral id ∧ IsCalm label
  | edge source _ label target => IsNumeral source ∧ IsCalm label ∧ IsNumeral target
  | styled ids => ids ≠ [] ∧ ∀ id ∈ ids, IsNumeral id
  | _ => True

theorem readStatement?_text (sound : s.IsSound) :
    readStatement? s.text.points = if s.isTorn then none else some s := by
  cases s with
  | title text => exact readStatement?_title text
  | subgraph id label => exact readStatement?_subgraph id sound
  | component id label => exact readStatement?_component id sound
  | port id direction label =>
    obtain ⟨⟨n, rfl⟩, calm⟩ := sound
    exact readStatement?_port n direction calm
  | edge source kind label target =>
    obtain ⟨⟨m, rfl⟩, calm, n, rfl⟩ := sound
    exact readStatement?_edge m n kind calm
  | styled ids => exact readStatement?_styled sound.1 sound.2
  | graph way =>
    cases sound
    exact readStatement?_word (by decide)
  | runs way =>
    cases sound
    exact readStatement?_word (by decide)
  | _ => exact readStatement?_word (by decide)

/-- A statement is on one line. -/
theorem flat_text (sound : s.IsSound) : newline ∉ s.text.points := by
  have digits (n : Nat) : newline ∉ (toString n : Text).points := not_mem_repr rfl n
  cases s with
  | title text => exact flat_append (by decide) sound
  | subgraph id label =>
    exact flat_append (flat_append (flat_append (flat_append (by decide) (digits id)) (by decide))
      sound.flat) (by decide)
  | component id label =>
    exact flat_append (flat_append (flat_append (flat_append (by decide) (digits id)) (by decide))
      sound.flat) (by decide)
  | port id direction label =>
    obtain ⟨⟨n, rfl⟩, calm⟩ := sound
    cases direction <;>
      exact flat_append (flat_append (flat_append (flat_append (by decide) (digits n)) (by decide))
        calm.flat) (by decide)
  | edge source kind label target =>
    obtain ⟨⟨m, rfl⟩, calm, n, rfl⟩ := sound
    have arrow : newline ∉ (Statement.arrow kind : Text).points := by cases kind <;> decide
    have front := flat_append (flat_append (flat_append (t := "p") (by decide) (digits m))
      (u := " ") (by decide)) arrow
    exact flat_append (flat_append (flat_append (flat_append front (by decide)) calm.flat)
      (by decide)) (digits n)
  | styled ids => exact not_mem_styled rfl (by decide) sound.2
  | graph way =>
    cases sound
    decide
  | runs way =>
    cases sound
    decide
  | _ => decide

theorem front_text (s : Statement) : s.text.points.takeWhile isBlank = [] ∧
    s.text.points.dropWhile isBlank = s.text.points := by
  cases s with
  | port id direction label => cases direction <;> exact ⟨rfl, rfl⟩
  | _ => exact ⟨rfl, rfl⟩

end Schematic.Mermaid
