import Reshape.Proofs.Composition.Embedding

/-! # Moments of a compilation

At every moment a compilation is inside of bindings and mappers, each directly inside
the one around it. It goes on by one change at a time: it enters or leaves a binding
or a mapper, or keeps a procedure. Every such change keeps the stacks of the session
in step with what the compilation is inside of, and no mapper is entered twice.
-/

namespace Reshape

/-- What a compilation can be inside of. -/
inductive Frame where
  | binding (key : String) (binding : Binding)
  | mapper (id : MapperId)

namespace Frame

def key? : Frame → Option String
  | binding key _ => some key
  | mapper _ => none

def mapper? : Frame → Option MapperId
  | binding .. => none
  | mapper id => some id

/-- The session inside a frame, unless that is a mapper which is entered already. -/
def enter? : Frame → Session → Option Session
  | binding key _, s => some { s with keys := key :: s.keys }
  | mapper id, s => if id ∈ s.mappers then none else some { s with mappers := id :: s.mappers }

def leave : Frame → Session → Session
  | binding .., s => { s with keys := s.keys.tail }
  | mapper _, s => { s with mappers := s.mappers.tail }

theorem store_of_enter? {f : Frame} {s t : Session} (h : f.enter? s = some t) :
    t.store = s.store := by
  cases f with
  | binding key b =>
    obtain rfl := Option.some.inj h
    rfl
  | mapper id =>
    rw [enter?] at h
    split_ifs at h
    obtain rfl := Option.some.inj h
    rfl

@[simp] theorem store_leave (f : Frame) (s : Session) : (f.leave s).store = s.store := by
  cases f <;> rfl

end Frame

def framesOf (bindings : List (String × Binding)) : List Frame :=
  bindings.map fun entry => .binding entry.1 entry.2

def Binding.inner : Binding → List Frame
  | .path .. => []
  | .transform _ => []
  | .mapper id _ => [.mapper id]
  | .tree bindings => framesOf bindings

def Frame.inner (s : Store) : Frame → List Frame
  | binding _ b => b.inner
  | mapper id => framesOf (s.mapper id).config

/-- What is compiled: a configuration that is not part of a mapper, or a mapper. -/
inductive Subject where
  | configuration (config : Configuration) (defaults : Defaults) (mode : Mode)
  | mapper (id : MapperId)

def Subject.inner : Subject → List Frame
  | configuration config _ _ => framesOf config
  | mapper id => [.mapper id]

namespace Store

/-- What is directly inside the innermost frame, or inside the subject if there is none. -/
def inner (s : Store) (subject : Subject) : List Frame → List Frame
  | [] => subject.inner
  | f :: _ => f.inner s

/-- Each frame is directly inside the one around it, and the outermost inside the subject. -/
def Nests (s : Store) (subject : Subject) : List Frame → Prop
  | [] => True
  | f :: frames => f ∈ s.inner subject frames ∧ s.Nests subject frames

theorem inner_eq_of_forget {s t : Store} (h : s.forget = t.forget) (subject : Subject)
    (frames : List Frame) : s.inner subject frames = t.inner subject frames := by
  match frames with
  | [] => rfl
  | .binding .. :: _ => rfl
  | .mapper id :: _ => exact congrArg framesOf (config_eq_of_forget h id)

end Store

/-- A moment of a compilation. -/
structure Moment where
  session : Session
  /-- What the compilation is inside of, innermost first. -/
  frames : List Frame

namespace Moment

/-- One change in the compilation of a subject. -/
inductive Step (subject : Subject) : Moment → Moment → Prop where
  | enter {s t : Session} {frames : List Frame} {f : Frame}
      (hin : f ∈ s.store.inner subject frames) (henter : f.enter? s = some t) :
      Step subject ⟨s, frames⟩ ⟨t, f :: frames⟩
  | leave {s : Session} {frames : List Frame} {f : Frame} :
      Step subject ⟨s, f :: frames⟩ ⟨f.leave s, frames⟩
  /-- The mapper that the compilation is inside of gets its procedure. -/
  | keep {s : Session} {frames : List Frame} {id : MapperId} {p : Procedure} :
      Step subject ⟨s, .mapper id :: frames⟩
        ⟨{ s with store := s.store.publish id p }, .mapper id :: frames⟩

/-- One change after the other, with the moment after each of them. -/
inductive Run (subject : Subject) : Moment → List Moment → Moment → Prop where
  | done (m : Moment) : Run subject m [] m
  | step {m n o : Moment} {moments : List Moment} :
      Step subject m n → Run subject n moments o → Run subject m (n :: moments) o

/-- The stacks are those at the start, with what the frames put on top of them. -/
structure Tracks (subject : Subject) (start : Session) (m : Moment) : Prop where
  keys : m.session.keys = m.frames.filterMap Frame.key? ++ start.keys
  mappers : m.session.mappers = m.frames.filterMap Frame.mapper? ++ start.mappers
  once : start.mappers.Nodup → m.session.mappers.Nodup
  nests : start.store.Nests subject m.frames

variable {subject : Subject} {start : Session} {m n o : Moment} {moments others : List Moment}

theorem Step.forget (h : Step subject m n) :
    n.session.store.forget = m.session.store.forget := by
  cases h with
  | enter _ henter => rw [Frame.store_of_enter? henter]
  | leave => rw [Frame.store_leave]
  | keep => exact Store.forget_publish

theorem Run.forget (h : Run subject m moments n) :
    n.session.store.forget = m.session.store.forget := by
  induction h with
  | done => rfl
  | step hstep _ ih => exact ih.trans hstep.forget

theorem Run.single (h : Step subject m n) : Run subject m [n] n := .step h (.done n)

theorem Run.append (h : Run subject m moments n) (h' : Run subject n others o) :
    Run subject m (moments ++ others) o := by
  induction h with
  | done => exact h'
  | step hstep _ ih => exact .step hstep (ih h')

theorem Tracks.refl (subject : Subject) (s : Session) : Tracks subject s ⟨s, []⟩ :=
  ⟨rfl, rfl, id, trivial⟩

theorem Tracks.step (hm : m.Tracks subject start)
    (hforget : m.session.store.forget = start.store.forget) (h : Step subject m n) :
    n.Tracks subject start := by
  obtain ⟨hkeys, hmappers, honce, hnests⟩ := hm
  cases h with
  | @enter s t frames f hin henter =>
    rw [Store.inner_eq_of_forget hforget] at hin
    cases f with
    | binding key b =>
      obtain rfl := Option.some.inj henter
      exact ⟨congrArg (key :: ·) hkeys, hmappers, honce, hin, hnests⟩
    | mapper id =>
      rw [Frame.enter?] at henter
      split_ifs at henter with hmem
      obtain rfl := Option.some.inj henter
      refine ⟨hkeys, congrArg (id :: ·) hmappers, fun hstart => ?_, hin, hnests⟩
      exact List.nodup_cons.mpr ⟨hmem, honce hstart⟩
  | @leave s frames f =>
    cases f with
    | binding key b => exact ⟨congrArg List.tail hkeys, hmappers, honce, hnests.2⟩
    | mapper id =>
      exact ⟨hkeys, congrArg List.tail hmappers, fun hstart => (honce hstart).tail, hnests.2⟩
  | keep => exact ⟨hkeys, hmappers, honce, hnests⟩

/-- The stacks keep track of the frames all along the way. -/
theorem Run.tracks (h : Run subject m moments n) (hm : m.Tracks subject start)
    (hforget : m.session.store.forget = start.store.forget) :
    ∀ k ∈ moments, k.Tracks subject start := by
  induction h with
  | done => exact List.forall_mem_nil _
  | step hstep _ ih =>
    have hnext := hm.step hforget hstep
    exact List.forall_mem_cons.mpr ⟨hnext, ih hnext (hstep.forget.trans hforget)⟩

end Moment

end Reshape
