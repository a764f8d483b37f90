import Reshape.Proofs.Composition.Moments
import Reshape.Proofs.Composition.Visits

/-! # Tracing a compilation

A compilation is traced by noting the moments that it goes through. Without the notes
it is the one that is run, and with them it is seen to go by one change at a time. So
the stacks of its session tell at every moment where it is, and whether it succeeds or
fails, it ends with the stacks with which it began.
-/

namespace Reshape

namespace Compiler

def readAt : Option String → Compiler (Option Path)
  | none => pure none
  | some text => some <$> readPath text

theorem run_readAt (source : Option String) (s : Session) :
    (readAt source).run s = (readSource source, s) := by
  cases source with
  | none => rfl
  | some text =>
    have hread : (readPath text).run s = (Path.read text, s) := rfl
    rw [readAt, ← bind_pure_comp, run_bind, hread, readSource]
    cases Path.read text <;> rfl

def within (f : Frame) (act : Compiler α) : Compiler α :=
  match f with
  | .binding key _ => withKey key act
  | .mapper id => withMapper id act

theorem run_within (f : Frame) (act : Compiler α) (s : Session) :
    (within f act).run s =
      match f.enter? s with
      | none => (.error (.circularMapper (currentField s)), s)
      | some t => ((act.run t).1, f.leave (act.run t).2) := by
  cases f with
  | binding key b => rfl
  | mapper id =>
    simp only [within, withMapper, ExceptT.run_mk, Frame.enter?]
    split_ifs <;> rfl

end Compiler

open Compiler

/-- A computation, and the moments that it goes through after the session in which it begins. -/
structure Traced (α : Type) where
  act : Compiler α
  course : Session → List Moment

namespace Traced

/-- A computation that leaves its session as it is. -/
def still (act : Compiler α) : Traced α := ⟨act, fun _ => []⟩

instance : Monad Traced where
  pure a := still (pure a)
  bind x f :=
    { act := x.act >>= fun a => (f a).act
      course := fun s => x.course s ++
        match x.act.run s with
        | (.ok a, t) => (f a).course t
        | (.error _, _) => [] }

def within (frames : List Frame) (f : Frame) (x : Traced α) : Traced α where
  act := Compiler.within f x.act
  course s :=
    match f.enter? s with
    | none => []
    | some t => ⟨t, f :: frames⟩ :: (x.course t ++ [⟨f.leave (x.act.run t).2, frames⟩])

def publish (frames : List Frame) (id : MapperId) (p : Procedure) : Traced Unit where
  act := modify fun s => { s with store := s.store.publish id p }
  course s := [⟨{ s with store := s.store.publish id p }, frames⟩]

theorem act_bind (x : Traced α) (f : α → Traced β) :
    (x >>= f).act = x.act >>= fun a => (f a).act := rfl

end Traced

open Traced

mutual

/-- Compile a binding, which is the innermost of the frames. -/
def Binding.trace (embed : List Frame → MapperId → Traced Procedure) (mode : Mode)
    (defaults : Defaults) (frames : List Frame) (key : String) : Binding → Traced Plan
  | .path text shape => do return .path (← still (readPath text)) shape
  | .transform f => return .transform f
  | .mapper id source => do
    let at? ← still (readAt source)
    return .mapper (← embed frames id) at?
  | .tree bindings => do
    return .tree (.mk mode (← traceBindings embed mode (defaults.subtree key) frames bindings))

def traceBindings (embed : List Frame → MapperId → Traced Procedure) (mode : Mode)
    (defaults : Defaults) (frames : List Frame) : List (String × Binding) → Traced (List Field)
  | [] => return []
  | (key, binding) :: rest => do
    let f := Frame.binding key binding
    let plan ← within frames f (binding.trace embed mode defaults (f :: frames) key)
    return .mk key plan (plan.default defaults key) ::
      (← traceBindings embed mode defaults frames rest)

end

def Configuration.trace (embed : List Frame → MapperId → Traced Procedure) (mode : Mode)
    (defaults : Defaults) (frames : List Frame) (config : Configuration) : Traced Procedure := do
  return .mk mode (← traceBindings embed mode defaults frames config)

def traceMapper (fuel : Nat) (frames : List Frame) (id : MapperId) : Traced Procedure := do
  let m := (← still get).store.mapper id
  match m.compiled with
  | some p => return p
  | none =>
    within frames (.mapper id) do
      match fuel with
      | 0 => still do throw (.circularMapper (currentField (← get)))
      | fuel + 1 =>
        let p ← m.config.trace (traceMapper fuel) m.mode m.defaults (.mapper id :: frames)
        publish (.mapper id :: frames) id p
        return p

namespace Subject

def compile (fuel : Nat) : Subject → Compiler Procedure
  | configuration config defaults mode => config.compile (compileMapper fuel) mode defaults
  | mapper id => compileMapper fuel id

def trace (fuel : Nat) : Subject → Traced Procedure
  | configuration config defaults mode => config.trace (traceMapper fuel) mode defaults []
  | mapper id => traceMapper fuel [] id

end Subject

section Act

variable {embed : List Frame → MapperId → Traced Procedure} {act : MapperId → Compiler Procedure}
  {mode : Mode}

mutual

theorem Binding.act_trace (h : ∀ frames j, (embed frames j).act = act j) (binding : Binding)
    (defaults : Defaults) (frames : List Frame) (key : String) :
    (binding.trace embed mode defaults frames key).act = binding.compile act mode defaults key := by
  cases binding with
  | path text shape => rfl
  | transform f => rfl
  | mapper id source =>
    cases source <;>
      · rw [Binding.trace, Binding.compile, ← h frames id]
        rfl
  | tree bindings =>
    rw [Binding.trace, Binding.compile, ← act_traceBindings h bindings _ frames]
    rfl

/-- Without the moments, tracing is compiling. -/
theorem act_traceBindings (h : ∀ frames j, (embed frames j).act = act j)
    (bindings : List (String × Binding)) (defaults : Defaults) (frames : List Frame) :
    (traceBindings embed mode defaults frames bindings).act =
      compileBindings act mode defaults bindings := by
  match bindings with
  | [] => rfl
  | (key, binding) :: rest =>
    have hbinding := binding.act_trace h defaults (.binding key binding :: frames) key
    rw [traceBindings, compileBindings, ← hbinding, ← act_traceBindings h rest defaults frames]
    rfl

end

theorem Configuration.act_trace (h : ∀ frames j, (embed frames j).act = act j)
    (config : Configuration) (defaults : Defaults) (frames : List Frame) :
    (config.trace embed mode defaults frames).act = config.compile act mode defaults := by
  rw [Configuration.compile, ← act_traceBindings h config defaults frames, ← bind_pure_comp]
  rfl

theorem act_traceMapper (fuel : Nat) (frames : List Frame) (id : MapperId) :
    (traceMapper fuel frames id).act = compileMapper fuel id := by
  induction fuel generalizing frames id with
  | zero =>
    rw [traceMapper, compileMapper, act_bind]
    refine congrArg (get >>= ·) (funext fun s => ?_)
    dsimp only
    cases (s.store.mapper id).compiled <;> rfl
  | succ fuel ih =>
    rw [traceMapper, compileMapper, act_bind]
    refine congrArg (get >>= ·) (funext fun s => ?_)
    dsimp only
    cases (s.store.mapper id).compiled with
    | some p => rfl
    | none =>
      rw [← Configuration.act_trace ih _ _ (.mapper id :: frames)]
      rfl

end Act

section Proceeds

variable {α β : Type} {base : Store} {subject : Subject} {frames : List Frame}

/--
Inside frames, a computation goes by one change at a time from a session with the
configurations of a store to the session with which it ends.
-/
def Traced.Proceeds (base : Store) (subject : Subject) (frames : List Frame) (x : Traced α) :
    Prop :=
  ∀ s, s.store.forget = base.forget →
    Moment.Run subject ⟨s, frames⟩ (x.course s) ⟨(x.act.run s).2, frames⟩

theorem Traced.Proceeds.still {act : Compiler α} (h : ∀ s, (act.run s).2 = s) :
    Proceeds base subject frames (still act) := by
  intro s _
  have hend : ((Traced.still act).act.run s).2 = s := h s
  rw [hend]
  exact .done _

theorem Traced.Proceeds.pure (a : α) : Proceeds base subject frames (pure a) := .still fun _ => rfl

theorem Traced.Proceeds.bind {x : Traced α} {f : α → Traced β}
    (h : Proceeds base subject frames x) (hf : ∀ a, Proceeds base subject frames (f a)) :
    Proceeds base subject frames (x >>= f) := by
  intro s hs
  have hx := h s hs
  change Moment.Run subject _ (x.course s ++ _) _
  rw [act_bind, run_bind]
  rcases hrun : x.act.run s with ⟨r, t⟩
  rw [hrun] at hx
  cases r with
  | error e => rwa [List.append_nil]
  | ok a => exact hx.append (hf a t (hx.forget.trans hs))

theorem Traced.Proceeds.get {f : Session → Traced β}
    (hf : ∀ s, s.store.forget = base.forget → Proceeds base subject frames (f s)) :
    Proceeds base subject frames (Traced.still MonadState.get >>= f) :=
  fun s hs => hf s hs s hs

theorem Traced.Proceeds.within {x : Traced α} {f : Frame} (hin : f ∈ base.inner subject frames)
    (h : Proceeds base subject (f :: frames) x) :
    Proceeds base subject frames (within frames f x) := by
  intro s hs
  have hin' : f ∈ s.store.inner subject frames := by rwa [Store.inner_eq_of_forget hs]
  simp only [Traced.within, run_within]
  cases henter : f.enter? s with
  | none => exact .done _
  | some t =>
    have ht : t.store.forget = base.forget := by rw [Frame.store_of_enter? henter, hs]
    exact .step (.enter hin' henter) ((h t ht).append (.single .leave))

theorem Traced.Proceeds.publish (id : MapperId) (p : Procedure) :
    Proceeds base subject (.mapper id :: frames) (publish (.mapper id :: frames) id p) :=
  fun _ _ => .single .keep

variable {embed : List Frame → MapperId → Traced Procedure} {mode : Mode}

mutual

theorem Binding.trace_proceeds
    (h : ∀ frames j, .mapper j ∈ base.inner subject frames →
      Proceeds base subject frames (embed frames j))
    (binding : Binding) (defaults : Defaults) (frames : List Frame) (key : String) :
    Proceeds base subject (.binding key binding :: frames)
      (binding.trace embed mode defaults (.binding key binding :: frames) key) := by
  cases binding with
  | path text shape => exact .bind (.still fun _ => rfl) fun _ => .pure _
  | transform f => exact .pure _
  | mapper id source =>
    have hread : ∀ s, ((readAt source).run s).2 = s := fun s => by rw [run_readAt]
    exact .bind (.still hread) fun _ => .bind (h _ id List.mem_cons_self) fun _ => .pure _
  | tree bindings =>
    exact .bind (traceBindings_proceeds h bindings _ _ (List.Subset.refl _)) fun _ => .pure _

/-- The bindings of an object are entered and left one after the other. -/
theorem traceBindings_proceeds
    (h : ∀ frames j, .mapper j ∈ base.inner subject frames →
      Proceeds base subject frames (embed frames j))
    (bindings : List (String × Binding)) (defaults : Defaults) (frames : List Frame)
    (hin : framesOf bindings ⊆ base.inner subject frames) :
    Proceeds base subject frames (traceBindings embed mode defaults frames bindings) := by
  match bindings with
  | [] => exact .pure _
  | (key, binding) :: rest =>
    obtain ⟨hbinding, hothers⟩ := List.cons_subset.mp hin
    rw [traceBindings]
    exact .bind (.within hbinding (binding.trace_proceeds h defaults frames key)) fun _ =>
      .bind (traceBindings_proceeds h rest defaults frames hothers) fun _ => .pure _

end

theorem Configuration.trace_proceeds
    (h : ∀ frames j, .mapper j ∈ base.inner subject frames →
      Proceeds base subject frames (embed frames j))
    (config : Configuration) (defaults : Defaults) (frames : List Frame)
    (hin : framesOf config ⊆ base.inner subject frames) :
    Proceeds base subject frames (config.trace embed mode defaults frames) :=
  .bind (traceBindings_proceeds h config defaults frames hin) fun _ => .pure _

theorem traceMapper_proceeds (fuel : Nat) (frames : List Frame) (id : MapperId)
    (hid : .mapper id ∈ base.inner subject frames) :
    Proceeds base subject frames (traceMapper fuel frames id) := by
  induction fuel generalizing frames id with
  | zero =>
    rw [traceMapper]
    refine .get fun s _ => ?_
    dsimp only
    split
    · exact .pure _
    · exact .within hid (.still fun _ => rfl)
  | succ fuel ih =>
    rw [traceMapper]
    refine .get fun s hs => ?_
    dsimp only
    split
    · exact .pure _
    · -- what is read of the mapper is its configuration, which is still the one in the base
      have hin : framesOf (s.store.mapper id).config ⊆
          base.inner subject (.mapper id :: frames) := by
        rw [Store.config_eq_of_forget hs]
        exact List.Subset.refl _
      exact .within hid (.bind (Configuration.trace_proceeds ih _ _ _ hin) fun p =>
        .bind (.publish id p) fun _ => .pure p)

end Proceeds

namespace Subject

theorem act_trace (subject : Subject) (fuel : Nat) :
    (subject.trace fuel).act = subject.compile fuel := by
  cases subject with
  | configuration config defaults mode => exact config.act_trace (act_traceMapper fuel) defaults []
  | mapper id => exact act_traceMapper fuel [] id

theorem trace_proceeds (subject : Subject) (fuel : Nat) (base : Store) :
    Proceeds base subject [] (subject.trace fuel) := by
  cases subject with
  | configuration config defaults mode =>
    exact config.trace_proceeds (traceMapper_proceeds fuel) defaults [] (List.Subset.refl _)
  | mapper id => exact traceMapper_proceeds fuel [] id List.mem_cons_self

theorem compile_restores (subject : Subject) (fuel : Nat) : Restores (subject.compile fuel) := by
  cases subject with
  | configuration config defaults mode =>
    exact config.compile_restores (compileMapper_restores fuel) mode defaults
  | mapper id => exact compileMapper_restores fuel id

/--
A compilation ends with the stacks with which it began, whether it succeeds or fails.
It goes there by one change at a time. At every moment the keys on the stack are those
that lead from where it began to the binding that it is at, and the mappers are those
that it has entered on this way, none of them twice.
-/
theorem compile_keeps_context (subject : Subject) (fuel : Nat) (s : Session) :
    let t := ((subject.compile fuel).run s).2
    let course := (subject.trace fuel).course s
    t.mappers = s.mappers ∧ t.keys = s.keys ∧
    (subject.trace fuel).act = subject.compile fuel ∧
    Moment.Run subject ⟨s, []⟩ course ⟨t, []⟩ ∧
    ∀ m ∈ course, m.Tracks subject s := by
  have hrestores := subject.compile_restores fuel s
  have hact := subject.act_trace fuel
  have hrun := subject.trace_proceeds fuel s.store s rfl
  rw [hact] at hrun
  exact ⟨hrestores.mappers, hrestores.keys, hact, hrun, hrun.tracks (.refl subject s) rfl⟩

/-- A mapper that embeds itself through another one, compiled inside a tree of a third one. -/
theorem compile_keeps_context_remoteCycle :
    let s : Session := ⟨Store.remoteCycle, [2], ["first", "part"]⟩
    let course := ((Subject.mapper 0).trace 2).course s
    (((Subject.mapper 0).compile 2).run s).1 =
        .error (.circularMapper "part.first.next.back") ∧
      (((Subject.mapper 0).compile 2).run s).2.mappers = [2] ∧
      (((Subject.mapper 0).compile 2).run s).2.keys = ["first", "part"] ∧
      course.map (fun m => (m.session.mappers, m.session.keys)) =
        [([0, 2], ["first", "part"]), ([0, 2], ["next", "first", "part"]),
          ([1, 0, 2], ["next", "first", "part"]), ([1, 0, 2], ["back", "next", "first", "part"]),
          ([1, 0, 2], ["next", "first", "part"]), ([0, 2], ["next", "first", "part"]),
          ([0, 2], ["first", "part"]), ([2], ["first", "part"])] ∧
      ∀ m ∈ course, m.session.mappers.Nodup := by
  obtain ⟨hmappers, hkeys, _, _, htracks⟩ :=
    compile_keeps_context (.mapper 0) 2 ⟨Store.remoteCycle, [2], ["first", "part"]⟩
  exact ⟨failure?_eq_some_iff.mp (by decide +kernel), hmappers, hkeys, by decide +kernel,
    fun m hm => (htracks m hm).once (by decide)⟩

end Subject

end Reshape
