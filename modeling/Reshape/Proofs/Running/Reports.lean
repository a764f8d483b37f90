import Reshape.Proofs.Running.FailFast

/-! # Reports of failures

A binding inside a procedure has an address, the positions of the fields that
lead to it. The addresses of one field come before those of the next, so their
order is that of the bindings. A safe run reports each binding that fails in it
once, in this order.
-/

namespace Reshape

/-- The positions of fields in the objects that hold them, outermost first. -/
abbrev Address := List Nat

mutual

/-- A binding fails at an address of a procedure, when that runs in safe mode. -/
inductive Procedure.FailsAt : Value → Procedure → Address → FailingPoint → Prop where
  | field {source : Value} {p : Procedure} {i : Nat} {key : String} {plan : Plan}
    {default : Option Value} {address : Address} {point : FailingPoint} :
    p.fields[i]? = some (.mk key plan default) → plan.FailsAt source key address point →
      Procedure.FailsAt source p (i :: address) point

/-- A binding fails at an address inside a field, or is the field itself. -/
inductive Plan.FailsAt : Value → String → Plan → Address → FailingPoint → Prop where
  | path {source : Value} {key : String} {path : Path} {shape : Shape} {fault : MappingFault} :
    path.resolveAs shape source = .error fault →
      Plan.FailsAt source key (.path path shape) [] ⟨[], key, .field, fault⟩
  | transform {source : Value} {key : String} {f : Transform} {fault : MappingFault} :
    f source = .error fault → Plan.FailsAt source key (.transform f) [] ⟨[], key, .field, fault⟩
  | source {source : Value} {key : String} {p : Procedure} {at? : Option Path}
    {fault : MappingFault} :
    embeddedSource at? source = .error fault →
      Plan.FailsAt source key (.mapper p at?) [] ⟨[], key, .mapper, fault⟩
  | child {source selected : Value} {key : String} {p : Procedure} {at? : Option Path}
    {fault : MappingFault} :
    embeddedSource at? source = .ok (some selected) → p.mode = .failFast →
    p.evaluate selected = .error fault →
      Plan.FailsAt source key (.mapper p at?) [] ⟨[], key, .mapper, .nested fault.message⟩
  | mapper {source selected : Value} {key : String} {p : Procedure} {at? : Option Path}
    {address : Address} {point : FailingPoint} :
    embeddedSource at? source = .ok (some selected) → p.mode = .safe →
    p.FailsAt selected address point →
      Plan.FailsAt source key (.mapper p at?) address (point.inside (.mapper key))
  | tree {source : Value} {key : String} {p : Procedure} {address : Address}
    {point : FailingPoint} :
    p.FailsAt source address point →
      Plan.FailsAt source key (.tree p) address (point.inside (.tree key))

end

/-- A list of all failing points with their addresses, in the order of these. -/
structure Enumerates (P : Address → FailingPoint → Prop) (sites : List (Address × FailingPoint)) :
    Prop where
  mem_iff : ∀ address point, (address, point) ∈ sites ↔ P address point
  ascending : sites.Pairwise (·.1 < ·.1)

namespace Enumerates

variable {P Q : Address → FailingPoint → Prop} {sites : List (Address × FailingPoint)}

theorem nil (h : ∀ address point, ¬ P address point) : Enumerates P [] where
  mem_iff address point := by simp [h]
  ascending := .nil

theorem singleton {point : FailingPoint} (h : ∀ address x, P address x ↔ address = [] ∧ x = point) :
    Enumerates P [([], point)] where
  mem_iff address x := by simp [h]
  ascending := by simp

theorem of_result {α : Type} (r : Except MappingFault α) (point : MappingFault → FailingPoint)
    (h : ∀ address x, P address x ↔ ∃ fault, r = .error fault ∧ address = [] ∧ x = point fault) :
    ∃ sites, Enumerates P sites ∧ sites.map Prod.snd = ((failure? r).map point).toList := by
  cases r with
  | ok a => exact ⟨[], .nil fun address x => by simp [h], rfl⟩
  | error fault => exact ⟨[([], point fault)], .singleton fun address x => by simp [h], rfl⟩

theorem inside (enclosure : Enclosure) (hsites : Enumerates P sites)
    (h : ∀ address x, Q address x ↔ ∃ point, P address point ∧ x = point.inside enclosure) :
    Enumerates Q (sites.map fun site => (site.1, site.2.inside enclosure)) where
  mem_iff address x := by
    simp only [h, ← hsites.mem_iff, List.mem_map, Prod.exists, Prod.mk.injEq]
    constructor
    · rintro ⟨_, point, hmem, rfl, rfl⟩
      exact ⟨point, hmem, rfl⟩
    · rintro ⟨point, hmem, rfl⟩
      exact ⟨address, point, hmem, rfl, rfl⟩
  ascending := by
    rw [List.pairwise_map]
    exact hsites.ascending

end Enumerates

section Fields

variable {source : Value} {n : Nat}

/-- A binding fails in a field of a list, whose first position is given. -/
def FieldsFailAt (source : Value) (n : Nat) (fields : List Field) (address : Address)
    (point : FailingPoint) : Prop :=
  ∃ i key plan default rest, fields[i]? = some (Field.mk key plan default) ∧
    plan.FailsAt source key rest point ∧ address = (n + i) :: rest

theorem fieldsFailAt_cons {key : String} {plan : Plan} {default : Option Value}
    {fields : List Field} {address : Address} {point : FailingPoint} :
    FieldsFailAt source n (.mk key plan default :: fields) address point ↔
      (∃ rest, plan.FailsAt source key rest point ∧ address = n :: rest) ∨
      FieldsFailAt source (n + 1) fields address point := by
  constructor
  · rintro ⟨i, key', plan', default', rest, hfield, hfails, rfl⟩
    cases i with
    | zero =>
      obtain ⟨rfl, rfl, rfl⟩ := Field.mk.inj (Option.some.inj hfield)
      exact .inl ⟨rest, hfails, rfl⟩
    | succ i => exact .inr ⟨i, key', plan', default', rest, hfield, hfails, by congr 1; omega⟩
  · rintro (⟨rest, hfails, rfl⟩ | ⟨i, key', plan', default', rest, hfield, hfails, rfl⟩)
    · exact ⟨0, key, plan, default, rest, rfl, hfails, rfl⟩
    · exact ⟨i + 1, key', plan', default', rest, hfield, hfails, by congr 1; omega⟩

theorem Procedure.failsAt_iff {p : Procedure} {address : Address} {point : FailingPoint} :
    p.FailsAt source address point ↔ FieldsFailAt source 0 p.fields address point := by
  constructor
  · rintro ⟨hfield, hfails⟩
    exact ⟨_, _, _, _, _, hfield, hfails, by rw [Nat.zero_add]⟩
  · rintro ⟨i, key, plan, default, rest, hfield, hfails, rfl⟩
    rw [Nat.zero_add]
    exact .field hfield hfails

theorem Enumerates.cons {key : String} {plan : Plan} {default : Option Value} {fields : List Field}
    {inside later : List (Address × FailingPoint)}
    (hinside : Enumerates (plan.FailsAt source key) inside)
    (hlater : Enumerates (FieldsFailAt source (n + 1) fields) later) :
    Enumerates (FieldsFailAt source n (.mk key plan default :: fields))
      (inside.map (fun site => (n :: site.1, site.2)) ++ later) where
  mem_iff address point := by
    rw [List.mem_append, hlater.mem_iff, fieldsFailAt_cons]
    refine or_congr_left ?_
    simp only [← hinside.mem_iff, List.mem_map, Prod.exists, Prod.mk.injEq]
    constructor
    · rintro ⟨rest, _, hmem, rfl, rfl⟩
      exact ⟨rest, hmem, rfl⟩
    · rintro ⟨rest, hmem, rfl⟩
      exact ⟨rest, point, hmem, rfl, rfl⟩
  ascending := by
    rw [List.pairwise_append, List.pairwise_map]
    refine ⟨hinside.ascending.imp fun h => List.cons_lt_cons_iff.mpr (.inr ⟨rfl, h⟩),
      hlater.ascending, ?_⟩
    intro first hfirst second hsecond
    obtain ⟨site, _, rfl⟩ := List.mem_map.mp hfirst
    obtain ⟨i, _, _, _, rest, _, _, haddress⟩ := (hlater.mem_iff _ _).mp hsecond
    rw [haddress]
    exact List.cons_lt_cons_iff.mpr (.inl (by omega))

end Fields

section Plans

variable {source : Value} {key : String} {p : Procedure} {at? : Option Path} {address : Address}
  {x : FailingPoint}

theorem Plan.failsAt_path_iff {path : Path} {shape : Shape} :
    (Plan.path path shape).FailsAt source key address x ↔
      ∃ fault, path.resolveAs shape source = .error fault ∧ address = [] ∧
        x = ⟨[], key, .field, fault⟩ := by
  constructor
  · intro h
    cases h with
    | path hfault => exact ⟨_, hfault, rfl, rfl⟩
  · rintro ⟨fault, hfault, rfl, rfl⟩
    exact .path hfault

theorem Plan.failsAt_transform_iff {f : Transform} :
    (Plan.transform f).FailsAt source key address x ↔
      ∃ fault, f source = .error fault ∧ address = [] ∧ x = ⟨[], key, .field, fault⟩ := by
  constructor
  · intro h
    cases h with
    | transform hfault => exact ⟨_, hfault, rfl, rfl⟩
  · rintro ⟨fault, hfault, rfl, rfl⟩
    exact .transform hfault

theorem Plan.failsAt_tree_iff :
    (Plan.tree p).FailsAt source key address x ↔
      ∃ point, p.FailsAt source address point ∧ x = point.inside (.tree key) := by
  constructor
  · intro h
    cases h with
    | tree hfails => exact ⟨_, hfails, rfl⟩
  · rintro ⟨point, hfails, rfl⟩
    exact .tree hfails

theorem Plan.failsAt_mapper_iff :
    (Plan.mapper p at?).FailsAt source key address x ↔
      (∃ fault, embeddedSource at? source = .error fault ∧ address = [] ∧
        x = ⟨[], key, .mapper, fault⟩) ∨
      ∃ selected, embeddedSource at? source = .ok (some selected) ∧
        ((p.mode = .failFast ∧ ∃ fault, p.evaluate selected = .error fault ∧ address = [] ∧
            x = ⟨[], key, .mapper, .nested fault.message⟩) ∨
          (p.mode = .safe ∧ ∃ point, p.FailsAt selected address point ∧
            x = point.inside (.mapper key))) := by
  constructor
  · intro h
    cases h with
    | source hsource => exact .inl ⟨_, hsource, rfl, rfl⟩
    | child hsource hmode hfault =>
      exact .inr ⟨_, hsource, .inl ⟨hmode, _, hfault, rfl, rfl⟩⟩
    | mapper hsource hmode hfails => exact .inr ⟨_, hsource, .inr ⟨hmode, _, hfails, rfl⟩⟩
  · rintro (⟨fault, hsource, rfl, rfl⟩ |
      ⟨selected, hsource, ⟨hmode, fault, hfault, rfl, rfl⟩ | ⟨hmode, point, hfails, rfl⟩⟩)
    · exact .source hsource
    · exact .child hsource hmode hfault
    · exact .mapper hsource hmode hfails

end Plans

mutual

/-- The failing points of a procedure are those at its addresses, in order. -/
theorem Procedure.enumeration (p : Procedure) (source : Value) :
    ∃ sites, Enumerates (p.FailsAt source) sites ∧
      sites.map Prod.snd = p.failingPoints source := by
  cases p with
  | mk mode fields =>
    obtain ⟨sites, hsites, hpoints⟩ := fields_enumeration fields source 0
    refine ⟨sites, ⟨fun address point => ?_, hsites.ascending⟩, hpoints⟩
    rw [Procedure.failsAt_iff]
    exact hsites.mem_iff address point

theorem fields_enumeration (fields : List Field) (source : Value) (n : Nat) :
    ∃ sites, Enumerates (FieldsFailAt source n fields) sites ∧
      sites.map Prod.snd = failingPointsOf source fields := by
  match fields with
  | [] => exact ⟨[], .nil (by simp [FieldsFailAt]), rfl⟩
  | .mk key plan default :: rest =>
    obtain ⟨inside, hinside, hpoints⟩ := plan.enumeration source key
    obtain ⟨later, hlater, hothers⟩ := fields_enumeration rest source (n + 1)
    refine ⟨_, hinside.cons hlater, ?_⟩
    rw [failingPointsOf, ← hpoints, ← hothers, List.map_append, List.map_map]
    rfl

theorem Plan.enumeration (plan : Plan) (source : Value) (key : String) :
    ∃ sites, Enumerates (plan.FailsAt source key) sites ∧
      sites.map Prod.snd = plan.failingPoints source key := by
  cases plan with
  | path path shape =>
    obtain ⟨sites, hsites, hpoints⟩ := Enumerates.of_result (path.resolveAs shape source)
      (⟨[], key, .field, ·⟩) fun address x => Plan.failsAt_path_iff
    refine ⟨sites, hsites, hpoints.trans ?_⟩
    rw [Plan.failingPoints]
    cases path.resolveAs shape source <;> rfl
  | transform f =>
    obtain ⟨sites, hsites, hpoints⟩ := Enumerates.of_result (f source)
      (⟨[], key, .field, ·⟩) fun address x => Plan.failsAt_transform_iff
    refine ⟨sites, hsites, hpoints.trans ?_⟩
    rw [Plan.failingPoints]
    cases f source <;> rfl
  | mapper p at? =>
    rw [Plan.failingPoints]
    rcases hsource : embeddedSource at? source with fault | _ | selected
    · exact ⟨_, .singleton fun address x => by simp [Plan.failsAt_mapper_iff, hsource], rfl⟩
    · exact ⟨[], .nil fun address x => by simp [Plan.failsAt_mapper_iff, hsource], rfl⟩
    · cases hmode : p.mode with
      | safe =>
        obtain ⟨sites, hsites, hpoints⟩ := p.enumeration selected
        refine ⟨_, hsites.inside (.mapper key) fun address x => ?_, ?_⟩
        · simp [Plan.failsAt_mapper_iff, hsource, hmode]
        · simp only [← hpoints, List.map_map]
          rfl
      | failFast =>
        have hfails (address : Address) (x : FailingPoint) :
            (Plan.mapper p at?).FailsAt source key address x ↔
              ∃ fault, p.evaluate selected = .error fault ∧ address = [] ∧
                x = ⟨[], key, .mapper, .nested fault.message⟩ := by
          simp [Plan.failsAt_mapper_iff, hsource, hmode]
        obtain ⟨sites, hsites, hpoints⟩ := Enumerates.of_result (p.evaluate selected)
          (fun fault => ⟨[], key, .mapper, .nested fault.message⟩) hfails
        refine ⟨sites, hsites, hpoints.trans ?_⟩
        dsimp only
        cases p.evaluate selected <;> rfl
  | tree p =>
    obtain ⟨sites, hsites, hpoints⟩ := p.enumeration source
    refine ⟨_, hsites.inside (.tree key) fun address x => Plan.failsAt_tree_iff, ?_⟩
    rw [Plan.failingPoints, ← hpoints, List.map_map, List.map_map]
    rfl

end

namespace Store

variable {s : Store} {p : Procedure}

/-- A procedure comes from the compilation of a mapper, or of a configuration of its own. -/
inductive Compiles (s : Store) : Procedure → Prop where
  | mapper {id : MapperId} {p : Procedure} :
    id < s.size → (s.compile id).1 = .ok p → s.Compiles p
  | configuration {config : Configuration} {defaults : Defaults} {mode : Mode} {p : Procedure} :
    config.Within s.size → (s.compileConfiguration config defaults mode).1 = .ok p → s.Compiles p

theorem Coherent.uniform_of_compiles (hs : s.Coherent) (hp : s.Compiles p) : p.Uniform := by
  cases hp with
  | mapper hid hp =>
    rw [hs.compile_eq_build hid] at hp
    exact build_uniform hp
  | configuration hconfig hp => exact (hs.compileConfiguration_uniform hconfig hp).2

/--
A safe run succeeds. Its errors are those of the bindings that fail in it, one
for each, in the order of their addresses.
-/
theorem errors_report_failures (hs : s.Reachable) (hp : s.Compiles p) (hmode : p.mode = .safe)
    (source : Value) :
    ∃ o, p.run source = .ok o ∧ ∃ sites : List (Address × FailingPoint),
      (∀ address point, (address, point) ∈ sites ↔ p.FailsAt source address point) ∧
      sites.Pairwise (·.1 < ·.1) ∧ o.errors = sites.map (·.2.toError) := by
  obtain ⟨o, ho, herrors, _⟩ :=
    p.evaluate_modes hmode (hs.coherent.uniform_of_compiles hp) source
  obtain ⟨sites, hsites, hpoints⟩ := p.enumeration source
  refine ⟨o, by rw [Procedure.run, ho]; rfl, sites, hsites.mem_iff, hsites.ascending, ?_⟩
  rw [herrors, ← hpoints, List.map_map]
  rfl

/-- A safe mapper and a fail-fast one, which both need an object. -/
def labelling : Store :=
  boxing.after (.create [("text", .path "text" .nested)] .empty .failFast)

def labelledPart : Configuration :=
  [("part", .tree [("box", .mapper 0 (some "box")), ("label", .mapper 1 (some "box"))])]

theorem reachable_labelling : labelling.Reachable := .step reachable_boxing (by decide)

theorem errors_report_failures_listedBox :
    ∃ p o a x b y, (labelling.compileConfiguration labelledPart .empty .safe).1 = .ok p ∧
      p.run listedBox = .ok o ∧ o.errors = [x.toError, y.toError] ∧
      x.toError = ⟨.nestedField, "part.box.size",
        .unresolved "size" "cannot read 'size' of array value"⟩ ∧
      y.toError = ⟨.mapper, "part.label", .nested
        "cannot resolve path 'text': cannot read 'text' of array value"⟩ ∧
      p.FailsAt listedBox a x ∧ p.FailsAt listedBox b y ∧ a < b := by
  obtain ⟨p, hp⟩ : ∃ p, (labelling.compileConfiguration labelledPart .empty .safe).1 = .ok p :=
    failure?_eq_none_iff.mp (by decide +kernel)
  have herrors : ((labelling.compileConfiguration labelledPart .empty .safe).1.bind
      (·.run listedBox)).map Outcome.errors = .ok
        [⟨.nestedField, "part.box.size",
            .unresolved "size" "cannot read 'size' of array value"⟩,
          ⟨.mapper, "part.label",
            .nested "cannot resolve path 'text': cannot read 'text' of array value"⟩] := by
    decide +kernel
  have hwithin : labelledPart.Within labelling.size := by decide
  have hmode := (reachable_labelling.coherent.compileConfiguration_uniform hwithin hp).1
  obtain ⟨o, ho, sites, hmem, hascending, hsites⟩ :=
    errors_report_failures reachable_labelling (.configuration hwithin hp) hmode listedBox
  rw [hp] at herrors
  simp only [Except.bind, ho, Except.map, Except.ok.injEq, hsites] at herrors
  obtain ⟨⟨a, x⟩, more, rfl, hx, hmore⟩ := List.map_eq_cons_iff.mp herrors
  obtain ⟨⟨b, y⟩, last, rfl, hy, hlast⟩ := List.map_eq_cons_iff.mp hmore
  obtain rfl := List.map_eq_nil_iff.mp hlast
  refine ⟨p, o, a, x, b, y, hp, ho, hsites, hx, hy, ?_, ?_, ?_⟩
  · exact (hmem a x).mp (by simp)
  · exact (hmem b y).mp (by simp)
  · exact (List.pairwise_cons.mp hascending).1 (b, y) (by simp)

end Store

end Reshape
