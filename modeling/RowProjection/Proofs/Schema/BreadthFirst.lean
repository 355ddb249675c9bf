import Mathlib.Algebra.Ring.Nat
import Mathlib.Data.List.Forall2
import RowProjection.Proofs.Schema.Resolve

/-! The order of a walk along references. What a walk has still to visit lies at one distance from
the start, and behind it at the next one; everything nearer was visited. So the closure of a name
lists each schema at its distance, the nearest first, and a missing type is one of the nearest. -/

namespace RowProjection.Catalog

variable {catalog : Catalog} {start name : String} {schema : Schema} {count : Nat}
  {visited front back : List String}

/-- A name that is reached from the start by so many references, from one declared schema to the
next. A name may be reached by different numbers of them. -/
inductive Away (catalog : Catalog) (start : String) : Nat → String → Prop where
  | start : Away catalog start 0 start
  | next {count : Nat} {name reference : String} {schema : Schema}
      (earlier : Away catalog start count name) (found : catalog.find? name = some schema)
      (refers : reference ∈ schema.references) : Away catalog start (count + 1) reference

/-- A name that is reached from the start, the start itself included. -/
def LeadsTo (catalog : Catalog) (start name : String) : Prop :=
  ∃ count, catalog.Away start count name

/-- The least number of references by which a name is reached. -/
def IsDistance (catalog : Catalog) (start name : String) (count : Nat) : Prop :=
  catalog.Away start count name ∧ ∀ other, catalog.Away start other name → count ≤ other

/-- The state of a walk at a distance from the start. -/
structure AtDistance (catalog : Catalog) (start : String) (count : Nat)
    (visited front back : List String) : Prop where
  front_away : ∀ name ∈ front, catalog.Away start count name
  back_away : ∀ name ∈ back, catalog.Away start (count + 1) name
  nearer : ∀ name fewer, fewer < count → catalog.Away start fewer name → name ∈ visited
  here : ∀ name, catalog.Away start count name → name ∈ visited ∨ name ∈ front
  declared : ∀ name ∈ visited, ∃ schema, catalog.find? name = some schema
  met : ∀ name ∈ visited, ∀ schema, catalog.find? name = some schema →
    ∀ reference ∈ schema.references, reference ∈ visited ∨ reference ∈ front ∨ reference ∈ back

namespace AtDistance

theorem initial (catalog : Catalog) (start : String) :
    AtDistance catalog start 0 [] [start] [] := by
  constructor
  · intro name member
    rw [List.mem_singleton.mp member]
    exact .start
  · simp
  · intro name fewer before
    omega
  · intro name away
    cases away
    exact .inr (List.mem_singleton.mpr rfl)
  · simp
  · simp

/-- A name that was visited before is passed over. -/
theorem skip (state : AtDistance catalog start count visited (name :: front) back)
    (seen : name ∈ visited) : AtDistance catalog start count visited front back := by
  have elsewhere : ∀ other, other ∈ name :: front → other ∈ visited ∨ other ∈ front := by
    intro other member
    rcases List.mem_cons.mp member with same | later
    · exact .inl (same ▸ seen)
    · exact .inr later
  refine ⟨(List.forall_mem_cons.mp state.front_away).2, state.back_away, state.nearer, ?_,
    state.declared, ?_⟩
  · intro other away
    rcases state.here other away with before | queued
    · exact .inl before
    · exact elsewhere other queued
  · intro other member schema found reference refers
    rcases state.met other member schema found reference refers with before | queued | behind
    · exact .inl before
    · exact (elsewhere reference queued).imp_right .inl
    · exact .inr (.inr behind)

/-- The references of a visited name lie one farther, behind all that is queued. -/
theorem visit (state : AtDistance catalog start count visited (name :: front) back)
    (found : catalog.find? name = some schema) :
    AtDistance catalog start count (name :: visited) front (back ++ schema.references) := by
  obtain ⟨away, later⟩ := List.forall_mem_cons.mp state.front_away
  constructor
  · exact later
  · intro reference member
    rcases List.mem_append.mp member with queued | refers
    · exact state.back_away reference queued
    · exact .next away found refers
  · intro other fewer before reached
    exact List.mem_cons_of_mem _ (state.nearer other fewer before reached)
  · intro other reached
    rcases state.here other reached with before | queued
    · exact .inl (List.mem_cons_of_mem _ before)
    · rcases List.mem_cons.mp queued with same | later
      · exact .inl (List.mem_cons.mpr (.inl same))
      · exact .inr later
  · exact List.forall_mem_cons.mpr ⟨⟨schema, found⟩, state.declared⟩
  · intro other member outer present reference refers
    rcases List.mem_cons.mp member with same | before
    · subst same
      cases found.symm.trans present
      exact .inr (.inr (List.mem_append_right _ refers))
    · rcases state.met other before outer present reference refers with met | queued | behind
      · exact .inl (List.mem_cons_of_mem _ met)
      · rcases List.mem_cons.mp queued with same | later
        · exact .inl (List.mem_cons.mpr (.inl same))
        · exact .inr (.inl later)
      · exact .inr (.inr (List.mem_append_left _ behind))

/-- With nothing left at a distance, the walk is at the next one. -/
theorem farther (state : AtDistance catalog start count visited [] back) :
    AtDistance catalog start (count + 1) visited back [] := by
  have reached : ∀ name, catalog.Away start count name → name ∈ visited := by
    intro name away
    exact (state.here name away).resolve_right List.not_mem_nil
  constructor
  · exact state.back_away
  · simp
  · intro name fewer before away
    by_cases same : fewer = count
    · subst same
      exact reached name away
    · exact state.nearer name fewer (by omega) away
  · intro name away
    cases away with
    | next earlier found refers =>
      simpa using state.met _ (reached _ earlier) _ found name refers
  · exact state.declared
  · intro name member schema found reference refers
    simpa using state.met name member schema found reference refers

/-- The next name to visit stands in front, at this distance or at the next one. -/
theorem split {queue : List String} (state : AtDistance catalog start count visited front back)
    (queued : front ++ back = name :: queue) :
    ∃ further nearby beyond, AtDistance catalog start further visited (name :: nearby) beyond ∧
      nearby ++ beyond = queue ∧ count ≤ further := by
  cases front with
  | cons first nearby =>
    cases queued
    exact ⟨count, nearby, back, state, rfl, Nat.le_refl _⟩
  | nil =>
    cases queued
    exact ⟨count + 1, queue, [], state.farther, List.append_nil _, Nat.le_succ _⟩

/-- A name that is visited now is reached by no fewer references. -/
theorem isDistance (state : AtDistance catalog start count visited (name :: front) back)
    (fresh : name ∉ visited) : catalog.IsDistance start name count := by
  refine ⟨state.front_away name (List.mem_cons_self ..), fun other away => ?_⟩
  by_contra fewer
  exact fresh (state.nearer name other (by omega) away)

/-- With nothing left to visit, all that is reached was visited. -/
theorem complete (state : AtDistance catalog start count visited [] [])
    (leads : catalog.LeadsTo start name) : name ∈ visited := by
  obtain ⟨steps, away⟩ := leads
  induction away with
  | start =>
    by_cases first : count = 0
    · subst first
      simpa using state.here start .start
    · exact state.nearer start 0 (by omega) .start
  | next _ found refers ih => simpa using state.met _ ih _ found _ refers

end AtDistance

/-- The schemas that a walk collects from a distance on: each at its own distance, which never
decreases, and together with those visited before all that are reached. -/
structure Collects (catalog : Catalog) (start : String) (count : Nat) (visited : List String)
    (schemas : List Schema) : Prop where
  declared : ∀ schema ∈ schemas, catalog.find? schema.name = some schema
  reached : ∀ schema ∈ schemas, catalog.LeadsTo start schema.name
  fresh : ∀ schema ∈ schemas, schema.name ∉ visited
  once : (schemas.map (·.name)).Nodup
  all : ∀ name, catalog.LeadsTo start name →
    name ∈ visited ∨ ∃ schema ∈ schemas, schema.name = name
  ordered : ∃ distances : List Nat, (count :: distances).Pairwise (· ≤ ·) ∧
    List.Forall₂ (fun schema distance => catalog.IsDistance start schema.name distance)
      schemas distances

/-- A name that is visited stands before all that is collected behind it. -/
theorem Collects.cons {further : Nat} {schemas : List Schema}
    (collected : Collects catalog start further (name :: visited) schemas)
    (found : catalog.find? name = some schema) (fresh : name ∉ visited)
    (distance : catalog.IsDistance start name further) (later : count ≤ further) :
    Collects catalog start count visited (schema :: schemas) := by
  have same : schema.name = name := catalog.named name schema found
  obtain ⟨distances, rising, distant⟩ := collected.ordered
  constructor
  · exact List.forall_mem_cons.mpr ⟨by rw [same, found], collected.declared⟩
  · exact List.forall_mem_cons.mpr ⟨⟨further, by rw [same]; exact distance.1⟩, collected.reached⟩
  · refine List.forall_mem_cons.mpr ⟨by rwa [same], fun other member seen => ?_⟩
    exact collected.fresh other member (List.mem_cons_of_mem _ seen)
  · rw [List.map_cons, List.nodup_cons]
    refine ⟨fun repeated => ?_, collected.once⟩
    obtain ⟨other, member, alike⟩ := List.mem_map.mp repeated
    exact collected.fresh other member (by simp [alike, same])
  · intro other leads
    rcases collected.all other leads with seen | ⟨inner, member, alike⟩
    · rcases List.mem_cons.mp seen with rfl | before
      · exact .inr ⟨schema, List.mem_cons_self .., same⟩
      · exact .inl before
    · exact .inr ⟨inner, List.mem_cons_of_mem _ member, alike⟩
  · refine ⟨further :: distances, List.pairwise_cons.mpr ⟨?_, rising⟩, ?_⟩
    · intro distance member
      rcases List.mem_cons.mp member with rfl | behind
      · exact later
      · exact Nat.le_trans later ((List.pairwise_cons.mp rising).1 distance behind)
    · exact .cons (by rwa [same]) distant

/-- A walk that succeeds collects the schemas in the order of their distances. -/
theorem collects_of_walk {schemas : List Schema}
    (state : AtDistance catalog start count visited front back)
    (walked : catalog.walk visited (front ++ back) = .ok schemas) :
    Collects catalog start count visited schemas := by
  generalize queued : front ++ back = queue at walked
  induction visited, queue using walk.induct catalog generalizing count front back schemas with
  | case1 visited =>
    obtain ⟨rfl, rfl⟩ := List.append_eq_nil_iff.mp queued
    rw [walk] at walked
    cases walked
    exact ⟨by simp, by simp, by simp, .nil, fun name leads => .inl (state.complete leads),
      [], List.pairwise_singleton .., .nil⟩
  | case2 visited name queue seen ih =>
    obtain ⟨further, nearby, beyond, state, rest, later⟩ := state.split queued
    rw [walk_seen seen] at walked
    have collected := ih (state.skip seen) rest walked
    obtain ⟨distances, rising, distant⟩ := collected.ordered
    refine { collected with ordered := ⟨distances, ?_, distant⟩ }
    rw [List.pairwise_cons] at rising ⊢
    exact ⟨fun distance member => Nat.le_trans later (rising.1 distance member), rising.2⟩
  | case3 visited name queue fresh missing =>
    rw [walk_missing fresh missing] at walked
    cases walked
  | case4 visited name queue fresh schema found ih =>
    obtain ⟨further, nearby, beyond, state, rest, later⟩ := state.split queued
    rw [walk_found fresh found] at walked
    obtain ⟨others, deeper, rfl⟩ := Except.map_eq_ok_iff.mp walked
    have collected := ih (state.visit found) (by rw [← List.append_assoc, rest]) deeper
    exact collected.cons found fresh (state.isDistance fresh) later

/-- A walk fails for a type that is missing, of those the nearest to the start. -/
theorem missing_of_walk {error : Error}
    (state : AtDistance catalog start count visited front back)
    (failed : catalog.walk visited (front ++ back) = .error error) :
    ∃ missing distance, error = .missingType missing ∧ catalog.find? missing = none ∧
      catalog.IsDistance start missing distance ∧
      ∀ other fewer, catalog.Away start fewer other → catalog.find? other = none →
        distance ≤ fewer := by
  generalize queued : front ++ back = queue at failed
  induction visited, queue using walk.induct catalog generalizing count front back error with
  | case1 visited =>
    rw [walk] at failed
    cases failed
  | case2 visited name queue seen ih =>
    obtain ⟨further, nearby, beyond, state, rest, _⟩ := state.split queued
    rw [walk_seen seen] at failed
    exact ih (state.skip seen) rest failed
  | case3 visited name queue fresh missing =>
    obtain ⟨further, nearby, beyond, state, _, _⟩ := state.split queued
    rw [walk_missing fresh missing] at failed
    refine ⟨name, further, (Except.error.inj failed).symm, missing, state.isDistance fresh, ?_⟩
    intro other fewer away undeclared
    by_contra nearer
    -- All that is nearer was visited, and what was visited is declared.
    obtain ⟨schema, found⟩ := state.declared other (state.nearer other fewer (by omega) away)
    rw [undeclared] at found
    cases found
  | case4 visited name queue fresh schema found ih =>
    obtain ⟨further, nearby, beyond, state, rest, _⟩ := state.split queued
    rw [walk_found fresh found] at failed
    exact ih (state.visit found) (by rw [← List.append_assoc, rest])
      (Except.map_eq_error_iff.mp failed)

/-- What closed names lead to is among them. -/
theorem Closed.mem_of_leadsTo {names : List String} (closed : catalog.Closed names)
    (inside : start ∈ names) (leads : catalog.LeadsTo start name) : name ∈ names := by
  obtain ⟨count, away⟩ := leads
  induction away with
  | start => exact inside
  | next _ found refers ih =>
    obtain ⟨_, present, among⟩ := closed _ ih
    cases found.symm.trans present
    exact among _ refers

/-- All that a name leads to is declared. -/
def IsClosedFrom (catalog : Catalog) (start : String) : Prop :=
  ∀ name, catalog.LeadsTo start name → ∃ schema, catalog.find? name = some schema

/-- A name that is not declared, of those that the start leads to one of the nearest. -/
structure IsNearestMissing (catalog : Catalog) (start missing : String) : Prop where
  undeclared : catalog.find? missing = none
  nearest : ∃ distance, catalog.IsDistance start missing distance ∧
    ∀ other fewer, catalog.Away start fewer other → catalog.find? other = none → distance ≤ fewer

theorem IsNearestMissing.not_isClosedFrom {missing : String}
    (nearest : catalog.IsNearestMissing start missing) : ¬ catalog.IsClosedFrom start := by
  intro closed
  obtain ⟨distance, away, _⟩ := nearest.nearest
  obtain ⟨schema, found⟩ := closed missing ⟨distance, away.1⟩
  rw [nearest.undeclared] at found
  cases found

/-- A name resolves if all that it leads to is declared; else a missing type is told. -/
theorem resolve_cases (catalog : Catalog) (name : String) :
    (∃ schema, catalog.resolve name = .ok schema ∧ catalog.IsClosedFrom name) ∨
      ∃ missing, catalog.resolve name = .error (.missingType missing) ∧
        catalog.IsNearestMissing name missing := by
  cases resolved : catalog.resolve name with
  | ok schema =>
    obtain ⟨names, inside, closed⟩ := closed_of_resolve resolved
    refine .inl ⟨schema, rfl, fun other leads => ?_⟩
    obtain ⟨schema, found, _⟩ := closed other (closed.mem_of_leadsTo inside leads)
    exact ⟨schema, found⟩
  | error error =>
    rcases Except.bind_eq_error_iff.mp resolved with walked | ⟨_, walked, _⟩
    · obtain ⟨missing, distance, rfl, undeclared, away, nearest⟩ :=
        missing_of_walk (.initial catalog name) (Except.map_eq_error_iff.mp walked)
      exact .inr ⟨missing, rfl, undeclared, distance, away, nearest⟩
    · obtain ⟨schemas, walked, _⟩ := Except.map_eq_ok_iff.mp walked
      obtain ⟨schema, succeeded⟩ := exists_resolve_of_closure walked
      rw [resolved] at succeeded
      cases succeeded

/-- The closure of a name is told from the references alone. It exists exactly if all that the name
leads to is declared; it lists that and nothing else, each schema once, the named one first and none
in front of a nearer one. Otherwise the error names a missing type, of those that the name leads to
one of the nearest. -/
theorem closure_breadth_first (catalog : Catalog) (name : String) :
    ((∃ schemas, catalog.closure name = .ok schemas) ↔
      ∀ other, catalog.LeadsTo name other → ∃ schema, catalog.find? other = some schema) ∧
    (∀ schemas, catalog.closure name = .ok schemas →
      (∀ schema, schema ∈ schemas ↔
        ∃ other, catalog.LeadsTo name other ∧ catalog.find? other = some schema) ∧
      (schemas.map (·.name)).Nodup ∧
      (∃ root, catalog.find? name = some root ∧ schemas.head? = some root) ∧
      ∃ distances : List Nat, distances.Pairwise (· ≤ ·) ∧
        List.Forall₂ (fun schema distance => catalog.IsDistance name schema.name distance)
          schemas distances) ∧
    ∀ error, catalog.closure name = .error error →
      ∃ missing distance, error = .missingType missing ∧ catalog.find? missing = none ∧
        catalog.IsDistance name missing distance ∧
        ∀ other fewer, catalog.Away name fewer other → catalog.find? other = none →
          distance ≤ fewer := by
  have initial := AtDistance.initial catalog name
  have collected {schemas : List Schema} (walked : catalog.closure name = .ok schemas) :
      Collects catalog name 0 [] schemas := collects_of_walk initial walked
  have reached {schemas : List Schema} (walked : catalog.closure name = .ok schemas)
      {other : String} (leads : catalog.LeadsTo name other) :
      ∃ schema ∈ schemas, catalog.find? other = some schema := by
    obtain ⟨schema, member, rfl⟩ :=
      ((collected walked).all other leads).resolve_left List.not_mem_nil
    exact ⟨schema, member, (collected walked).declared schema member⟩
  have failure {error : Error} (failed : catalog.closure name = .error error) :=
    missing_of_walk initial failed
  refine ⟨⟨?_, ?_⟩, ?_, fun error => failure⟩
  · rintro ⟨schemas, walked⟩ other leads
    obtain ⟨schema, _, found⟩ := reached walked leads
    exact ⟨schema, found⟩
  · intro declared
    cases walked : catalog.closure name with
    | ok schemas => exact ⟨schemas, rfl⟩
    | error error =>
      obtain ⟨missing, distance, _, undeclared, away, _⟩ := failure walked
      obtain ⟨schema, found⟩ := declared missing ⟨distance, away.1⟩
      rw [undeclared] at found
      cases found
  · intro schemas walked
    obtain ⟨distances, rising, distant⟩ := (collected walked).ordered
    refine ⟨fun schema => ⟨fun member => ?_, ?_⟩, (collected walked).once, ?_,
      distances, (List.pairwise_cons.mp rising).2, distant⟩
    · exact ⟨schema.name, (collected walked).reached schema member,
        (collected walked).declared schema member⟩
    · rintro ⟨other, leads, found⟩
      obtain ⟨listed, member, present⟩ := reached walked leads
      cases found.symm.trans present
      exact member
    · obtain ⟨root, _, found⟩ := reached walked ⟨0, .start⟩
      rw [closure, walk_found List.not_mem_nil found] at walked
      obtain ⟨others, _, rfl⟩ := Except.map_eq_ok_iff.mp walked
      exact ⟨root, found, rfl⟩

section Routes

/-- Types in two circles, of which the last one is met at the end of a walk from the first. -/
def routeSchema : Schema :=
  .ofFields "Route" [.composite "first" "Stop", .composite "last" "Stop"]

def stopSchema : Schema :=
  .ofFields "Stop" [.composite "route" "Route", .composite "zone" "Zone"]

def zoneSchema : Schema :=
  .ofFields "Zone" [.scalar "name" .string, .composite "main" "Stop"]

/-- The zones are not declared yet. -/
def earlyCatalog : Catalog :=
  (empty.insert routeSchema).insert stopSchema

def routeCatalog : Catalog :=
  earlyCatalog.insert zoneSchema

private theorem closure_routeCatalog :
    routeCatalog.closure "Route" = .ok [routeSchema, stopSchema, zoneSchema] := by
  have route : routeCatalog.find? "Route" = some routeSchema := rfl
  have stop : routeCatalog.find? "Stop" = some stopSchema := rfl
  have zone : routeCatalog.find? "Zone" = some zoneSchema := rfl
  rw [closure, walk_found List.not_mem_nil route]
  change Except.map _ (routeCatalog.walk ["Route"] ["Stop", "Stop"]) = _
  rw [walk_found (by decide) stop]
  change Except.map _ (Except.map _
    (routeCatalog.walk ["Stop", "Route"] ["Stop", "Route", "Zone"])) = _
  rw [walk_seen (by decide), walk_seen (by decide), walk_found (by decide) zone,
    walk_visited (by decide)]
  rfl

private theorem closure_earlyCatalog :
    earlyCatalog.closure "Route" = .error (.missingType "Zone") := by
  have route : earlyCatalog.find? "Route" = some routeSchema := rfl
  have stop : earlyCatalog.find? "Stop" = some stopSchema := rfl
  rw [closure, walk_found List.not_mem_nil route]
  change Except.map _ (earlyCatalog.walk ["Route"] ["Stop", "Stop"]) = _
  rw [walk_found (by decide) stop]
  change Except.map _ (Except.map _
    (earlyCatalog.walk ["Stop", "Route"] ["Stop", "Route", "Zone"])) = _
  rw [walk_seen (by decide), walk_seen (by decide), walk_missing (by decide) rfl]
  rfl

theorem closure_of_routes :
    routeCatalog.closure "Route" = .ok [routeSchema, stopSchema, zoneSchema] ∧
    (∃ distances : List Nat, distances.Pairwise (· ≤ ·) ∧
      List.Forall₂ (fun schema distance => routeCatalog.IsDistance "Route" schema.name distance)
        [routeSchema, stopSchema, zoneSchema] distances) ∧
    earlyCatalog.closure "Route" = .error (.missingType "Zone") ∧
    ∃ distance, earlyCatalog.IsDistance "Route" "Zone" distance := by
  obtain ⟨_, _, _, ordered⟩ :=
    (closure_breadth_first routeCatalog "Route").2.1 _ closure_routeCatalog
  obtain ⟨missing, distance, same, _, away, _⟩ :=
    (closure_breadth_first earlyCatalog "Route").2.2 _ closure_earlyCatalog
  cases same
  exact ⟨closure_routeCatalog, ordered, closure_earlyCatalog, distance, away⟩

end Routes

end RowProjection.Catalog
