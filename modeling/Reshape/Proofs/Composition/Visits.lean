import Reshape.Proofs.Composition.Reachable

/-! # Depth-first visits

A walk visits the bindings of a mapper in depth-first order: a binding comes
before those of its inline tree or of the mapper that it embeds, unless that is
entered already. Building a mapper fails with the first offence of this walk.
-/

namespace Reshape

/-- A binding at the place where a walk meets it. -/
structure Visit where
  keys : List String
  mappers : List MapperId
  binding : Binding

def unreadable? (text : String) : Option Error :=
  match Path.parse text with
  | .ok _ => none
  | .error reason => some (.invalidPath text reason)

def reentered? (stack : List MapperId) (keys : List String) (id : MapperId) : Option Error :=
  if id ∈ stack then some (.circularMapper (".".intercalate keys)) else none

/-- What is wrong with a binding at its place, apart from what comes inside it. -/
def Visit.offence? (v : Visit) : Option Error :=
  match v.binding with
  | .path text _ => unreadable? text
  | .transform _ => none
  | .mapper id source => (source.bind unreadable?).or (reentered? v.mappers v.keys id)
  | .tree _ => none

mutual

/-- The visits to a binding, where `inside` visits an embedded mapper. -/
def Binding.visits (inside : List String → MapperId → List Visit) (stack : List MapperId)
    (keys : List String) : Binding → List Visit
  | .path text shape => [⟨keys, stack, .path text shape⟩]
  | .transform f => [⟨keys, stack, .transform f⟩]
  | .mapper id source => ⟨keys, stack, .mapper id source⟩ :: inside keys id
  | .tree bindings => ⟨keys, stack, .tree bindings⟩ :: visitsIn inside stack keys bindings

def visitsIn (inside : List String → MapperId → List Visit) (stack : List MapperId)
    (keys : List String) : List (String × Binding) → List Visit
  | [] => []
  | (key, binding) :: rest =>
    binding.visits inside stack (keys ++ [key]) ++ visitsIn inside stack keys rest

end

/-- The visits to the bindings of a mapper, unless it is entered already. -/
def Store.visits (s : Store) (stack : List MapperId) (keys : List String) (id : MapperId) :
    List Visit :=
  if id ∈ stack then []
  else if id < s.size then
    visitsIn (fun keys j => s.visits (id :: stack) keys j) (id :: stack) keys (s.mapper id).config
  else []
termination_by s.unentered stack
decreasing_by exact unentered_cons_lt ‹_› ‹_›

mutual

def Binding.pathTexts : Binding → List String
  | .path text _ => [text]
  | .transform _ => []
  | .mapper _ source => source.toList
  | .tree bindings => pathTextsIn bindings

def pathTextsIn : List (String × Binding) → List String
  | [] => []
  | (_, binding) :: rest => binding.pathTexts ++ pathTextsIn rest

end

def Configuration.Readable (config : Configuration) : Prop :=
  ∀ text ∈ pathTextsIn config, ∃ p, Path.parse text = .ok p

theorem failure?_read (text : String) : failure? (Path.read text) = unreadable? text := by
  rw [Path.read, unreadable?]
  cases Path.parse text <;> rfl

theorem failure?_readSource (source : Option String) :
    failure? (readSource source) = source.bind unreadable? := by
  cases source with
  | none => rfl
  | some text =>
    rw [readSource, Option.bind_some, ← failure?_read]
    cases Path.read text <;> rfl

theorem unreadable?_eq_none_iff {text : String} :
    unreadable? text = none ↔ ∃ p, Path.parse text = .ok p := by
  rw [unreadable?]
  cases Path.parse text <;> simp

section FirstOffence

variable {e : List String → MapperId → Except Error Procedure}
  {inside : List String → MapperId → List Visit} {stack : List MapperId}

mutual

theorem Binding.failure?_build (binding : Binding) (mode : Mode) (defaults : Defaults)
    (keys : List String) (key : String)
    (h : ∀ j ∈ binding.embedded, ∀ keys, failure? (e keys j) =
      (reentered? stack keys j).or ((inside keys j).findSome? Visit.offence?)) :
    failure? (binding.build e mode defaults keys key) =
      (binding.visits inside stack keys).findSome? Visit.offence? := by
  cases binding with
  | path text shape =>
    simp only [Binding.build, Binding.visits, List.findSome?_cons, Visit.offence?, ← failure?_read]
    cases Path.read text <;> rfl
  | transform f => rfl
  | mapper id source =>
    have hid := h id (mem_embedded_mapper id source) keys
    simp only [Binding.build, Binding.visits, List.findSome?_cons, Visit.offence?,
      ← failure?_readSource]
    cases readSource source with
    | error fault => rfl
    | ok at? =>
      have hbuild : failure? (do return Plan.mapper (← e keys id) at?) = failure? (e keys id) := by
        cases e keys id <;> rfl
      simp only [ok_bind, hbuild, hid, failure?_ok, Option.none_or]
      cases reentered? stack keys id <;> rfl
  | tree bindings =>
    have hb := buildBindings_failure? bindings mode (defaults.subtree key) keys h
    simp only [Binding.build, Binding.visits, List.findSome?_cons, Visit.offence?, ← hb]
    cases buildBindings e mode (defaults.subtree key) keys bindings <;> rfl

theorem buildBindings_failure? (bindings : List (String × Binding)) (mode : Mode)
    (defaults : Defaults) (keys : List String)
    (h : ∀ j ∈ embeddedIn bindings, ∀ keys, failure? (e keys j) =
      (reentered? stack keys j).or ((inside keys j).findSome? Visit.offence?)) :
    failure? (buildBindings e mode defaults keys bindings) =
      (visitsIn inside stack keys bindings).findSome? Visit.offence? := by
  match bindings with
  | [] => rfl
  | (key, binding) :: rest =>
    obtain ⟨hbinding, hothers⟩ := forall_embeddedIn_cons.mp h
    have hb := binding.failure?_build mode defaults (keys ++ [key]) key hbinding
    have hrest := buildBindings_failure? rest mode defaults keys hothers
    rw [buildBindings, visitsIn, List.findSome?_append, ← hb, ← hrest]
    cases binding.build e mode defaults (keys ++ [key]) key with
    | error fault => rfl
    | ok plan => cases buildBindings e mode defaults keys rest <;> rfl

end

end FirstOffence

/-- Nothing is wrong with any binding that is visited. -/
def Inoffensive (visits : List Visit) : Prop := ∀ v ∈ visits, v.offence? = none

section Inoffensive

variable {inside : List String → MapperId → List Visit} {stack : List MapperId}
  {P : MapperId → Prop}

theorem inoffensive_cons {v : Visit} {visits : List Visit} :
    Inoffensive (v :: visits) ↔ v.offence? = none ∧ Inoffensive visits :=
  List.forall_mem_cons

theorem inoffensive_append {visits others : List Visit} :
    Inoffensive (visits ++ others) ↔ Inoffensive visits ∧ Inoffensive others :=
  List.forall_mem_append

theorem reentered?_eq_none_iff {keys : List String} {id : MapperId} :
    reentered? stack keys id = none ↔ id ∉ stack := by
  simp [reentered?]

mutual

theorem Binding.visits_inoffensive_iff (binding : Binding) (keys : List String)
    (h : ∀ j ∈ binding.embedded, ∀ keys, j ∉ stack ∧ Inoffensive (inside keys j) ↔ P j) :
    Inoffensive (binding.visits inside stack keys) ↔
      (∀ text ∈ binding.pathTexts, unreadable? text = none) ∧ ∀ j ∈ binding.embedded, P j := by
  cases binding with
  | path text shape => simp [Inoffensive, Binding.visits, Binding.pathTexts, Binding.embedded,
      Visit.offence?]
  | transform f => simp [Inoffensive, Binding.visits, Binding.pathTexts, Binding.embedded,
      Visit.offence?]
  | mapper id source =>
    have hid := h id (mem_embedded_mapper id source) keys
    simp only [Binding.visits, Binding.pathTexts, Binding.embedded, inoffensive_cons,
      Visit.offence?, Option.or_eq_none_iff, reentered?_eq_none_iff, List.forall_mem_singleton,
      ← hid, and_assoc]
    cases source <;> simp
  | tree bindings =>
    have hb := visitsIn_inoffensive_iff bindings keys h
    simp only [Binding.visits, inoffensive_cons, Visit.offence?, hb, true_and]
    rfl

theorem visitsIn_inoffensive_iff (bindings : List (String × Binding)) (keys : List String)
    (h : ∀ j ∈ embeddedIn bindings, ∀ keys, j ∉ stack ∧ Inoffensive (inside keys j) ↔ P j) :
    Inoffensive (visitsIn inside stack keys bindings) ↔
      (∀ text ∈ pathTextsIn bindings, unreadable? text = none) ∧
        ∀ j ∈ embeddedIn bindings, P j := by
  match bindings with
  | [] => simp [Inoffensive, visitsIn, pathTextsIn, embeddedIn]
  | (key, binding) :: rest =>
    obtain ⟨hbinding, hothers⟩ := forall_embeddedIn_cons.mp h
    have hb := binding.visits_inoffensive_iff (keys ++ [key]) hbinding
    have hrest := visitsIn_inoffensive_iff rest keys hothers
    simp only [visitsIn, pathTextsIn, embeddedIn, inoffensive_append, hb, hrest,
      List.forall_mem_append]
    exact and_and_and_comm

end

end Inoffensive

namespace Store

variable {s : Store} {stack : List MapperId} {keys : List String} {id : MapperId}

theorem visits_of_mem (h : id ∈ stack) : s.visits stack keys id = [] := by
  rw [visits, if_pos h]

theorem visits_of_not_mem (h : id ∉ stack) :
    s.visits stack keys id =
      visitsIn (s.visits (id :: stack)) (id :: stack) keys (s.mapper id).config := by
  rw [visits, if_neg h]
  split
  · rfl
  · rename_i hid
    rw [mapper_of_size_le (Nat.le_of_not_lt hid)]
    rfl

/-- Building a mapper fails with the first offence of its visits. -/
theorem failure?_build :
    failure? (s.build stack keys id) =
      (reentered? stack keys id).or ((s.visits stack keys id).findSome? Visit.offence?) := by
  induction stack, id using s.entering_induction generalizing keys with
  | entered stack id hmem =>
    rw [build_of_mem hmem, visits_of_mem hmem, reentered?, if_pos hmem]
    rfl
  | enter stack id hmem ih =>
    have hb := buildBindings_failure? (s.mapper id).config (s.mapper id).mode (s.mapper id).defaults
      keys fun j hj keys => ih j hj
    rw [build_of_not_mem hmem, visits_of_not_mem hmem, reentered?, if_neg hmem, Option.none_or,
      ← hb, Configuration.build]
    cases buildBindings (s.build (id :: stack)) _ _ keys (s.mapper id).config <;> rfl

/-- The mappers that a mapper reaches are readable, not entered, and do not embed themselves. -/
def Sound (s : Store) (stack : List MapperId) (id : MapperId) : Prop :=
  ∀ j, s.Reaches id j →
    (s.mapper j).config.Readable ∧ j ∉ stack ∧ ¬ Relation.TransGen s.Embeds j j

theorem sound_iff :
    s.Sound stack id ↔ (s.mapper id).config.Readable ∧ id ∉ stack ∧
      ∀ j, s.Embeds id j → s.Sound (id :: stack) j := by
  constructor
  · intro h
    obtain ⟨hread, hmem, hcycle⟩ := h id .refl
    refine ⟨hread, hmem, fun j hj k hk => ?_⟩
    obtain ⟨hread', hmem', hcycle'⟩ := h k (.head hj hk)
    refine ⟨hread', fun hin => ?_, hcycle'⟩
    rcases List.mem_cons.mp hin with rfl | hin
    · exact hcycle (.head' hj hk)
    · exact hmem' hin
  · rintro ⟨hread, hmem, hchildren⟩ k hk
    rcases Relation.ReflTransGen.cases_head hk with rfl | ⟨j, hj, hjk⟩
    · refine ⟨hread, hmem, fun hcycle => ?_⟩
      obtain ⟨j, hj, hback⟩ := Relation.TransGen.head'_iff.mp hcycle
      exact (hchildren j hj id hback).2.1 List.mem_cons_self
    · obtain ⟨hread', hmem', hcycle'⟩ := hchildren j hj k hjk
      exact ⟨hread', fun hin => hmem' (List.mem_cons_of_mem _ hin), hcycle'⟩

theorem inoffensive_visits_iff :
    id ∉ stack ∧ Inoffensive (s.visits stack keys id) ↔ s.Sound stack id := by
  induction stack, id using s.entering_induction generalizing keys with
  | entered stack id hmem =>
    rw [sound_iff]
    simp [hmem]
  | enter stack id hmem ih =>
    rw [sound_iff, visits_of_not_mem hmem, visitsIn_inoffensive_iff (P := s.Sound (id :: stack))
      (s.mapper id).config keys fun j hj keys => ih j hj]
    simp only [hmem, not_false_eq_true, true_and, Configuration.Readable, unreadable?_eq_none_iff]
    rfl

theorem build_eq_ok_iff :
    (∃ p, s.build stack keys id = .ok p) ↔ s.Sound stack id := by
  rw [← failure?_eq_none_iff, failure?_build, Option.or_eq_none_iff, reentered?_eq_none_iff,
    List.findSome?_eq_none_iff]
  exact inoffensive_visits_iff

/-- The fuel of a compilation never runs out. -/
theorem Coherent.runCompiler_of_size_le (hs : s.Coherent) (hid : id < s.size) {fuel : Nat}
    (hfuel : s.size ≤ fuel) : s.runCompiler (compileMapper fuel id) = s.compile id := by
  have hagree : Compiler.Agree s [] (compileMapper fuel id) (compileMapper s.size id) :=
    compileMapper_agree hs.closed hid (by rwa [unentered_nil]) (unentered_nil s).le
  rw [Store.compile, Store.runCompiler, Store.runCompiler, hagree ⟨s, [], []⟩ rfl rfl]

theorem Coherent.isCompiled_compile_iff (hs : s.Coherent) (hid : id < s.size) :
    (s.compile id).2.IsCompiled id ↔ ∃ p, (s.compile id).1 = .ok p := by
  obtain ⟨t, hcompile, hst, hmade⟩ := hs.compile hid
  rw [hcompile]
  constructor
  · intro hc
    obtain ⟨p, hp⟩ := isCompiled_iff.mp hc
    have hbuild := hst.coherent.cached id p hp [] [] (by simp)
    exact ⟨p, by rw [← build_eq_of_forget hst.forget, hbuild]⟩
  · rintro ⟨p, hp⟩
    exact hmade p hp

/--
A compilation ends, with a procedure just if all mappers in reach are readable
and none embeds itself, and otherwise with the first offence in depth-first
order. The mapper is compiled afterwards just if there is a procedure.
-/
theorem compile_decides_soundness (hs : s.Reachable) (hid : id < s.size) :
    (∀ fuel, s.size ≤ fuel → s.runCompiler (compileMapper fuel id) = s.compile id) ∧
    ((∃ p, (s.compile id).1 = .ok p) ↔
      (∀ j, s.Reaches id j → (s.mapper j).config.Readable) ∧
      ∀ j, s.Reaches id j → ¬ Relation.TransGen s.Embeds j j) ∧
    (∀ e, (s.compile id).1 = .error e ↔
      (s.visits [] [] id).findSome? Visit.offence? = some e) ∧
    ((s.compile id).2.IsCompiled id ↔ ∃ p, (s.compile id).1 = .ok p) := by
  obtain ⟨t, hcompile, _⟩ := hs.coherent.compile hid
  refine ⟨fun fuel => hs.coherent.runCompiler_of_size_le hid, ?_, fun e => ?_,
    hs.coherent.isCompiled_compile_iff hid⟩
  · rw [hcompile, build_eq_ok_iff]
    constructor
    · intro h
      exact ⟨fun j hj => (h j hj).1, fun j hj => (h j hj).2.2⟩
    · rintro ⟨hread, hcycle⟩ j hj
      exact ⟨hread j hj, List.not_mem_nil, hcycle j hj⟩
  · rw [hcompile, ← failure?_eq_some_iff, failure?_build, reentered?, if_neg List.not_mem_nil,
      Option.none_or]

/-- Two mappers that embed each other, and one that embeds the first of them in a tree. -/
def remoteCycle : Store :=
  (((Store.empty.after (.create [] .empty .safe)).after
    (.create [("back", .mapper 0 none)] .empty .safe)).after
      (.configure 0 (·.put "next" (.mapper 1 none)))).after
        (.create [("part", .tree [("first", .mapper 0 none)])] .empty .failFast)

theorem reachable_remoteCycle : remoteCycle.Reachable :=
  .step (.step (.step (.step .empty (by decide)) (by decide)) (by decide)) (by decide)

theorem compile_decides_soundness_remoteCycle :
    (remoteCycle.compile 2).1 = .error (.circularMapper "part.first.next.back") ∧
      (remoteCycle.visits [] [] 2).findSome? Visit.offence? =
        some (.circularMapper "part.first.next.back") ∧
      ¬ (remoteCycle.compile 2).2.IsCompiled 2 ∧
      remoteCycle.runCompiler (compileMapper 7 2) = remoteCycle.compile 2 := by
  obtain ⟨hfuel, _, herror, _⟩ :=
    compile_decides_soundness reachable_remoteCycle (show 2 < remoteCycle.size by decide)
  have h : (remoteCycle.compile 2).1 = .error (.circularMapper "part.first.next.back") :=
    failure?_eq_some_iff.mp (by decide +kernel)
  exact ⟨h, (herror _).mp h, by decide +kernel, hfuel 7 (by decide)⟩

end Store

end Reshape
