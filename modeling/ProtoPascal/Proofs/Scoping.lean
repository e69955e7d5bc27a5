import ProtoPascal.Pascal.Layout
import ProtoPascal.Proofs.MemberNames

/-!
How Pascal finds the type for which a name with dots stands. Its first segment is looked up, without
regard to the case of letters, in the class in which the name is used, then in the classes around
this one, then among the types of the unit, and last among the names of units. The other segments
are looked up inside what was found. A name that a scope has twice stands for nothing.

* `resolve`: the type for which a name stands;
* `resolve_local_iff`, `resolve_foreign_iff`: when a name that starts at the level of a unit, and one
  that starts with a unit, stand for the type to which they lead.
-/

namespace ProtoPascal.Pascal

open Naming (Apart)

/-! ### Scopes -/

/-- The place of a declaration: the position of its unit, that of a type in the unit, and those of
members in classes. Classes that are only announced do not count. -/
abbrev Site := List Nat

/-- The names of a scope in order, with the types for which they stand. -/
abbrev Names := List (String × Option TypeDeclaration)

/-- The type that a member declares. -/
def Member.type? : Member → Option TypeDeclaration
  | .nestedType _ _ declared => some declared
  | .item .. => none

/-- The names that the members of a class declare. -/
def memberNames (members : List Member) : Names :=
  (members.filter fun member => !member.isForward).map fun member => (member.name, member.type?)

/-- The names inside a type. -/
def TypeDeclaration.names : TypeDeclaration → Names
  | .classType _ _ _ members => memberNames members
  | _ => []

/-- The names that the types of a unit declare. -/
def typeNames (types : List TypeDeclaration) : Names :=
  (types.filter fun type => !type.isForward).map fun type => (type.name, some type)

namespace Names

/-- Where a scope has a name. -/
def occurrences (names : Names) (name : String) : List ((String × Option TypeDeclaration) × Nat) :=
  names.zipIdx.filter fun entry => Text.sameLetters entry.1.1 name

/-- Whether a scope has a name. -/
def Has (names : Names) (name : String) : Prop :=
  names.occurrences name ≠ []

instance (names : Names) (name : String) : Decidable (names.Has name) :=
  inferInstanceAs (Decidable (_ ≠ []))

/-- Whether a scope has a name at one place only. -/
def HasOnce (names : Names) (name : String) : Prop :=
  (names.occurrences name).length = 1

instance (names : Names) (name : String) : Decidable (names.HasOnce name) :=
  inferInstanceAs (Decidable (_ = 1))

/-- The way to the type for which a name with several segments stands inside a scope. -/
def find (names : Names) : List String → Option Site
  | [] => some []
  | name :: rest =>
    match names.occurrences name with
    | [((_, some type), position)] => (find type.names rest).map (position :: ·)
    | _ => none

/-- The classes around a declaration, from the inside to the outside, with their names. The way to
the declaration starts in a scope that is itself at a place. -/
def enclosing (names : Names) (outer : Site) : Site → List (Site × Names)
  | [] => []
  | position :: rest =>
    match names[position]? with
    | some (_, some type) =>
      enclosing type.names (outer ++ [position]) rest ++ [(outer ++ [position], type.names)]
    | _ => []

end Names

/-- What other units know of a unit: the segments of its name, and the names of its types. -/
structure UnitNames where
  path : List String
  names : Names

/-- The positions of the units with a name. -/
def unitsNamed (units : List UnitNames) (path : List String) : List Nat :=
  (units.zipIdx.filter fun entry => entry.1.path.map Text.fold == path.map Text.fold).map Prod.snd

/-- The units with the longest name that begins with some segments and goes on with more of them,
and the segments that remain. -/
def longestUnit (units : List UnitNames) (front : List String) :
    List String → Option (List Nat × List String)
  | [] => none
  | segment :: rest =>
    match longestUnit units (front ++ [segment]) rest with
    | some found => some found
    | none =>
      match unitsNamed units (front ++ [segment]) with
      | [] => none
      | positions => some (positions, rest)

/-- The place of the type for which a name with segments stands in the class at a place of a unit. -/
def resolve (units : List UnitNames) (own : Nat) (site : Site) (path : List String) :
    Option Site := do
  let first ← path.head?
  let unit ← units[own]?
  match (unit.names.enclosing [own] site).find? fun scope => scope.2.Has first with
  | some (outer, names) => (names.find path).map (outer ++ ·)
  | none =>
    if unit.names.Has first then (unit.names.find path).map (own :: ·)
    else
      match longestUnit units [] path with
      | some ([position], rest) => do
        let unit ← units[position]?
        (unit.names.find rest).map (position :: ·)
      | _ => none

/-! ### Ways to types -/

/-- A path leads to the type at a site of a scope: its segments are the names of the classes on the
way and of the type, and no class on the way has two members of one name. -/
inductive Leads : Names → List String → Site → Prop
  | here {names : Names} : Leads names [] []
  | inside {names : Names} {name : String} {type : TypeDeclaration} {position : Nat}
      {path : List String} {site : Site} (found : names[position]? = some (name, some type))
      (apart : Apart (type.names.map Prod.fst)) (deeper : Leads type.names path site) :
      Leads names (name :: path) (position :: site)

theorem Names.length_of_find {names : Names} {path : List String} {site : Site}
    (found : names.find path = some site) : site.length = path.length := by
  induction path generalizing names site with
  | nil =>
    rw [Names.find, Option.some.injEq] at found
    subst found
    rfl
  | cons name rest ih =>
    rw [Names.find] at found
    split at found
    · obtain ⟨deeper, within, rfl⟩ := Option.map_eq_some_iff.mp found
      rw [List.length_cons, List.length_cons, ih within]
    · cases found

/-- A path that is found starts with a name that the scope has once. -/
theorem Names.hasOnce_of_find {names : Names} {name : String} {rest : List String} {site : Site}
    (found : names.find (name :: rest) = some site) : names.HasOnce name := by
  rw [Names.find] at found
  split at found
  · next once => rw [Names.HasOnce, once, List.length_singleton]
  · cases found

theorem Names.has_of_hasOnce {names : Names} {name : String} (once : names.HasOnce name) :
    names.Has name := by
  intro missing
  rw [Names.HasOnce, missing, List.length_nil] at once
  exact absurd once Nat.zero_ne_one

theorem Names.mem_occurrences {names : Names} {name : String} {type : Option TypeDeclaration}
    {position : Nat} (found : names[position]? = some (name, type)) :
    ((name, type), position) ∈ names.occurrences name :=
  List.mem_filter.mpr ⟨List.mem_zipIdx_iff_getElem?.mpr found, Text.sameLetters_self name⟩

/-- A scope whose names are apart has each of them once. -/
theorem Names.hasOnce_of_apart {names : Names} (apart : Apart (names.map Prod.fst)) {name : String}
    {type : Option TypeDeclaration} {position : Nat}
    (found : names[position]? = some (name, type)) : names.HasOnce name := by
  have all : ∀ entry ∈ names.occurrences name, entry.2 = position := by
    intro entry occurs
    obtain ⟨inside, same⟩ := List.mem_filter.mp occurs
    have there := List.mem_zipIdx_iff_getElem?.mp inside
    rw [Text.sameLetters_iff_fold] at same
    have folded (index : Nat) (shown : String × Option TypeDeclaration)
        (at_index : names[index]? = some shown) :
        ((names.map Prod.fst).map Text.fold)[index]? = some (Text.fold shown.1) := by
      rw [List.getElem?_map, List.getElem?_map, at_index, Option.map_some, Option.map_some]
    have below := (List.getElem?_eq_some_iff.mp (folded _ _ there)).1
    refine (List.getElem?_inj below apart).mp ?_
    rw [folded _ _ there, folded _ _ found, same]
  have distinct : (names.occurrences name).map Prod.snd |>.Nodup := by
    refine List.Nodup.sublist (List.filter_sublist.map Prod.snd) ?_
    rw [List.zipIdx_map_snd]
    exact List.nodup_range' ..
  have single : ((names.occurrences name).map Prod.snd).Perm [position] := by
    refine (List.perm_ext_iff_of_nodup distinct (List.nodup_singleton _)).mpr fun index => ?_
    rw [List.mem_singleton, List.mem_map]
    constructor
    · rintro ⟨entry, occurs, rfl⟩
      exact all entry occurs
    · rintro rfl
      exact ⟨_, Names.mem_occurrences found, rfl⟩
  have counted := single.length_eq
  rwa [List.length_map] at counted

/-- What a scope has once is found there. -/
theorem Names.find_cons {names : Names} {name : String} {type : TypeDeclaration} {position : Nat}
    (found : names[position]? = some (name, some type)) (once : names.HasOnce name)
    (rest : List String) :
    names.find (name :: rest) = (type.names.find rest).map (position :: ·) := by
  obtain ⟨entry, only⟩ := List.length_eq_one_iff.mp once
  have occurs := Names.mem_occurrences found
  rw [only, List.mem_singleton] at occurs
  subst occurs
  rw [Names.find, only]

/-- **A path is found where it leads**, if the scope has its first segment once. -/
theorem Leads.find {names : Names} {path : List String} {site : Site}
    (leads : Leads names path site) (once : ∀ first ∈ path.head?, names.HasOnce first) :
    names.find path = some site := by
  induction leads with
  | here => rfl
  | @inside names name type position path site found apart deeper ih =>
    rw [Names.find_cons found (once name rfl), ih, Option.map_some]
    intro first isFirst
    cases deeper with
    | here => cases isFirst
    | inside next _ _ =>
      cases isFirst
      exact Names.hasOnce_of_apart apart next

/-! ### Units -/

theorem mem_unitsNamed {units : List UnitNames} {path : List String} {position : Nat} :
    position ∈ unitsNamed units path ↔
      ∃ unit, units[position]? = some unit ∧ unit.path.map Text.fold = path.map Text.fold := by
  simp only [unitsNamed, List.mem_map, List.mem_filter, List.mem_zipIdx_iff_getElem?, beq_iff_eq]
  constructor
  · rintro ⟨⟨unit, position⟩, ⟨found, same⟩, rfl⟩
    exact ⟨unit, found, same⟩
  · rintro ⟨unit, found, same⟩
    exact ⟨(unit, position), ⟨found, same⟩, rfl⟩

/-- No unit is named by segments that end like no name of a unit. -/
theorem longestUnit_eq_none {units : List UnitNames} {path : List String}
    (foreign : ∀ segment ∈ path, ∀ unit ∈ units, ∀ last ∈ unit.path.getLast?,
      Text.fold last ≠ Text.fold segment) (front : List String) :
    longestUnit units front path = none := by
  induction path generalizing front with
  | nil => rfl
  | cons segment rest ih =>
    have none_here : unitsNamed units (front ++ [segment]) = [] := by
      refine List.eq_nil_iff_forall_not_mem.mpr fun position inside => ?_
      obtain ⟨unit, found, same⟩ := mem_unitsNamed.mp inside
      have ends := congrArg List.getLast? same
      rw [List.getLast?_map, List.getLast?_map, List.getLast?_concat, Option.map_some] at ends
      obtain ⟨last, isLast, agrees⟩ := Option.map_eq_some_iff.mp ends
      exact foreign segment (List.mem_cons_self ..) unit (List.mem_of_getElem? found) last isLast
        agrees
    rw [longestUnit, ih fun later inside => foreign later (List.mem_cons_of_mem _ inside), none_here]

/-- Segments that name a unit stand for it, if no longer name of a unit begins with them. -/
theorem longestUnit_append {units : List UnitNames} {path rest : List String}
    (front : List String) (some_path : path ≠ [])
    (named : unitsNamed units (front ++ path) ≠ [])
    (longest : longestUnit units (front ++ path) rest = none) :
    longestUnit units front (path ++ rest) = some (unitsNamed units (front ++ path), rest) := by
  induction path generalizing front with
  | nil => exact absurd rfl some_path
  | cons segment more ih =>
    rw [List.cons_append, longestUnit]
    cases more with
    | nil =>
      rw [List.nil_append, longest]
      cases found : unitsNamed units (front ++ [segment]) with
      | nil => exact absurd found named
      | cons => rfl
    | cons next more =>
      have shifted : front ++ segment :: next :: more = front ++ [segment] ++ next :: more := by
        rw [List.append_assoc, List.singleton_append]
      rw [shifted] at named longest ⊢
      rw [ih _ (List.cons_ne_nil _ _) named longest]

/-! ### Names in classes -/

section

variable {units : List UnitNames} {own : Nat} {unit : UnitNames} {site : Site}

/-- The classes around a declaration lie deeper than the scope in which the way to it starts. -/
theorem Names.length_lt_of_mem_enclosing {names inner : Names} {outer place : Site}
    (inside : (place, inner) ∈ names.enclosing outer site) : outer.length < place.length := by
  induction site generalizing names outer with
  | nil => cases inside
  | cons position rest ih =>
    rw [Names.enclosing] at inside
    split at inside
    · rcases List.mem_append.mp inside with deeper | here
      · have below := ih deeper
        rw [List.length_append] at below
        exact Nat.lt_of_succ_lt below
      · rw [List.mem_singleton, Prod.mk.injEq] at here
        rw [here.1, List.length_append]
        exact Nat.lt_succ_self _
    · cases inside

/-- No class around a declaration has a name. -/
def Uncaptured (unit : UnitNames) (own : Nat) (site : Site) (name : String) : Prop :=
  ∀ scope ∈ unit.names.enclosing [own] site, ¬ scope.2.Has name

instance (name : String) : Decidable (Uncaptured unit own site name) :=
  inferInstanceAs (Decidable (∀ scope ∈ unit.names.enclosing [own] site, ¬ scope.2.Has name))

/-- A name that no class has is looked up in the unit. -/
theorem resolve_of_uncaptured (here : units[own]? = some unit) {first : String}
    {rest : List String} (uncaptured : Uncaptured unit own site first) :
    resolve units own site (first :: rest) =
      if unit.names.Has first then (unit.names.find (first :: rest)).map (own :: ·)
      else
        match longestUnit units [] (first :: rest) with
        | some ([position], remaining) => do
          let unit ← units[position]?
          (unit.names.find remaining).map (position :: ·)
        | _ => none := by
  have missing : ((unit.names.enclosing [own] site).find? fun scope => scope.2.Has first) = none :=
    List.find?_eq_none.mpr fun scope inside => by
      simpa using uncaptured scope inside
  simp only [resolve, List.head?_cons, here, Option.bind_eq_bind, Option.bind_some, missing]

/-- A name that a class has stands for nothing as high up as the types of a unit. -/
theorem uncaptured_of_resolve (here : units[own]? = some unit) {first : String}
    {rest : List String} {found : Site} (shallow : found.length ≤ (first :: rest).length + 1)
    (resolved : resolve units own site (first :: rest) = some found) :
    Uncaptured unit own site first := by
  simp only [resolve, List.head?_cons, here, Option.bind_eq_bind, Option.bind_some] at resolved
  split at resolved
  · next outer names captured =>
    -- What a class around the name has lies deeper than a name of this length leads.
    obtain ⟨inner, within, rfl⟩ := Option.map_eq_some_iff.mp resolved
    have deep := Names.length_lt_of_mem_enclosing (List.mem_of_find?_eq_some captured)
    rw [List.length_append, Names.length_of_find within] at shallow
    rw [List.length_singleton] at deep
    omega
  · next missing =>
    intro scope inside has
    have not_here := List.find?_eq_none.mp missing scope inside
    simp [has] at not_here

/-- **A name that starts with a type of the unit stands for the type to which it leads there exactly
if no class around it has its first segment, and the unit has it once.** -/
theorem resolve_local_iff (here : units[own]? = some unit) {first : String} {rest : List String}
    {target : Nat} {found : Site} (length : found.length = (first :: rest).length)
    (leads : target = own → unit.names.Has first → Leads unit.names (first :: rest) found)
    (no_unit : longestUnit units [] (first :: rest) = none) :
    resolve units own site (first :: rest) = some (target :: found) ↔
      target = own ∧ Uncaptured unit own site first ∧ unit.names.HasOnce first := by
  constructor
  · intro resolved
    have shallow : (target :: found).length ≤ (first :: rest).length + 1 :=
      Nat.le_of_eq (congrArg (· + 1) length)
    have uncaptured := uncaptured_of_resolve here shallow resolved
    rw [resolve_of_uncaptured here uncaptured, no_unit] at resolved
    split at resolved
    · obtain ⟨inner, within, same⟩ := Option.map_eq_some_iff.mp resolved
      rw [List.cons.injEq] at same
      exact ⟨same.1.symm, uncaptured, Names.hasOnce_of_find within⟩
    · cases resolved
  · rintro ⟨rfl, uncaptured, once⟩
    have has := Names.has_of_hasOnce once
    rw [resolve_of_uncaptured here uncaptured, if_pos has,
      (leads rfl has).find (by rintro _ ⟨⟩; exact once), Option.map_some]

/-- **A name that starts with the name of a unit stands for the type to which it leads there exactly
if no class around it has its first segment, its own unit does not have it either, and there is one
unit of the name, which has the first segment after it once.** -/
theorem resolve_foreign_iff (here : units[own]? = some unit) {first next : String}
    {segments rest : List String} {target : Nat} {targetUnit : UnitNames} {found : Site}
    (there : units[target]? = some targetUnit)
    (named : targetUnit.path = first :: segments)
    (length : found.length = (next :: rest).length)
    (leads : targetUnit.names.Has next → Leads targetUnit.names (next :: rest) found)
    (longest : longestUnit units (first :: segments) (next :: rest) = none) :
    resolve units own site (first :: segments ++ next :: rest) = some (target :: found) ↔
      Uncaptured unit own site first ∧ ¬ unit.names.Has first ∧
        unitsNamed units targetUnit.path = [target] ∧ targetUnit.names.HasOnce next := by
  have isNamed : target ∈ unitsNamed units (first :: segments) :=
    mem_unitsNamed.mpr ⟨targetUnit, there, by rw [named]⟩
  have unitFound : longestUnit units [] (first :: (segments ++ next :: rest)) =
      some (unitsNamed units (first :: segments), next :: rest) :=
    longestUnit_append [] (List.cons_ne_nil _ _) (List.ne_nil_of_mem isNamed) longest
  rw [List.cons_append, named]
  constructor
  · intro resolved
    have uncaptured := uncaptured_of_resolve here
      (by simp only [List.length_cons, List.length_append] at length ⊢; omega) resolved
    rw [resolve_of_uncaptured here uncaptured, unitFound] at resolved
    split at resolved
    · obtain ⟨inner, within, same⟩ := Option.map_eq_some_iff.mp resolved
      have inner_length := Names.length_of_find within
      rw [List.cons.injEq] at same
      rw [same.2, length] at inner_length
      simp only [List.length_cons, List.length_append] at inner_length
      omega
    · next free =>
      split at resolved
      · next position remaining same =>
        rw [Option.some.injEq, Prod.mk.injEq] at same
        obtain ⟨only, rfl⟩ := same
        rw [only, List.mem_singleton] at isNamed
        subst isNamed
        rw [there, Option.bind_eq_bind, Option.bind_some] at resolved
        obtain ⟨inner, within, -⟩ := Option.map_eq_some_iff.mp resolved
        exact ⟨uncaptured, free, only, Names.hasOnce_of_find within⟩
      · cases resolved
  · rintro ⟨uncaptured, free, only, once⟩
    rw [resolve_of_uncaptured here uncaptured, if_neg free, unitFound, only]
    dsimp only
    rw [there, Option.bind_eq_bind, Option.bind_some,
      (leads (Names.has_of_hasOnce once)).find (by rintro _ ⟨⟩; exact once), Option.map_some]

end

end ProtoPascal.Pascal
