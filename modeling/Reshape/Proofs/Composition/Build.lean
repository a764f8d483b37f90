import Reshape.Proofs.Composition.Embedding
import Reshape.Proofs.Results

/-! # Building procedures

The procedure of a mapper as a function of configurations, defaults and modes
alone: every embedded mapper is built at each place where it is embedded. The
mappers that are being built are on a stack, so the building ends.
-/

namespace Reshape

def readSource : Option String → Except Error (Option Path)
  | none => .ok none
  | some text => (Path.read text).map some

/-- What stands in for an absent value; an inline tree is never absent. -/
def Plan.default (defaults : Defaults) (key : String) : Plan → Option Value
  | .tree _ => none
  | _ => defaults.get? key

mutual

/--
The plan of a binding to which target keys lead, where `embedded` builds the
mapper at a list of target keys.
-/
def Binding.build (embedded : List String → MapperId → Except Error Procedure) (mode : Mode)
    (defaults : Defaults) (keys : List String) (key : String) : Binding → Except Error Plan
  | .path text shape => do
    let path ← Path.read text
    return .path path shape
  | .transform f => return .transform f
  | .mapper id source => do
    let at? ← readSource source
    let procedure ← embedded keys id
    return .mapper procedure at?
  | .tree bindings => do
    let fields ← buildBindings embedded mode (defaults.subtree key) keys bindings
    return .tree (.mk mode fields)

def buildBindings (embedded : List String → MapperId → Except Error Procedure) (mode : Mode)
    (defaults : Defaults) (keys : List String) : List (String × Binding) → Except Error (List Field)
  | [] => return []
  | (key, binding) :: rest => do
    let plan ← binding.build embedded mode defaults (keys ++ [key]) key
    let fields ← buildBindings embedded mode defaults keys rest
    return .mk key plan (plan.default defaults key) :: fields

end

def Configuration.build (embedded : List String → MapperId → Except Error Procedure) (mode : Mode)
    (defaults : Defaults) (keys : List String) (config : Configuration) : Except Error Procedure :=
  Procedure.mk mode <$> buildBindings embedded mode defaults keys config

/-- The procedure of a mapper, unless it is being built already. -/
def Store.build (s : Store) (stack : List MapperId) (keys : List String) (id : MapperId) :
    Except Error Procedure :=
  if id ∈ stack then .error (.circularMapper (".".intercalate keys))
  else if id < s.size then
    (s.mapper id).config.build (fun keys j => s.build (id :: stack) keys j) (s.mapper id).mode
      (s.mapper id).defaults keys
  else .ok (.mk .safe [])
termination_by s.unentered stack
decreasing_by exact unentered_cons_lt ‹_› ‹_›

section Parts

variable {e : List String → MapperId → Except Error Procedure} {mode : Mode} {defaults : Defaults}
  {keys : List String} {key : String} {plan : Plan}

theorem Binding.build_path_eq_ok_iff {text : String} {shape : Shape} :
    (Binding.path text shape).build e mode defaults keys key = .ok plan ↔
      ∃ path, Path.read text = .ok path ∧ .path path shape = plan := by
  simp only [Binding.build, bind_eq_ok_iff, pure_eq_ok_iff]

theorem Binding.build_mapper_eq_ok_iff {id : MapperId} {source : Option String} :
    (Binding.mapper id source).build e mode defaults keys key = .ok plan ↔
      ∃ at?, readSource source = .ok at? ∧ ∃ p, e keys id = .ok p ∧ .mapper p at? = plan := by
  simp only [Binding.build, bind_eq_ok_iff, pure_eq_ok_iff]

theorem Binding.build_tree_eq_ok_iff {bindings : List (String × Binding)} :
    (Binding.tree bindings).build e mode defaults keys key = .ok plan ↔
      ∃ fields, buildBindings e mode (defaults.subtree key) keys bindings = .ok fields ∧
        .tree (.mk mode fields) = plan := by
  simp only [Binding.build, bind_eq_ok_iff, pure_eq_ok_iff]

theorem buildBindings_cons_eq_ok_iff {binding : Binding} {rest : List (String × Binding)}
    {fields : List Field} :
    buildBindings e mode defaults keys ((key, binding) :: rest) = .ok fields ↔
      ∃ plan, binding.build e mode defaults (keys ++ [key]) key = .ok plan ∧
        ∃ others, buildBindings e mode defaults keys rest = .ok others ∧
          .mk key plan (plan.default defaults key) :: others = fields := by
  simp only [buildBindings, bind_eq_ok_iff, pure_eq_ok_iff]

theorem Configuration.build_eq_ok_iff {config : Configuration} {p : Procedure} :
    config.build e mode defaults keys = .ok p ↔
      ∃ fields, buildBindings e mode defaults keys config = .ok fields ∧ .mk mode fields = p :=
  map_eq_ok_iff

end Parts

section Congruence

variable {e e' : List String → MapperId → Except Error Procedure} {mode : Mode}

mutual

theorem Binding.build_congr (binding : Binding) (defaults : Defaults) (keys : List String)
    (key : String) (h : ∀ j ∈ binding.embedded, ∀ keys, e keys j = e' keys j) :
    binding.build e mode defaults keys key = binding.build e' mode defaults keys key := by
  cases binding with
  | path text shape => rfl
  | transform f => rfl
  | mapper id source => simp only [Binding.build, h id (mem_embedded_mapper id source)]
  | tree bindings => rw [Binding.build, Binding.build, buildBindings_congr bindings _ _ h]

theorem buildBindings_congr (bindings : List (String × Binding)) (defaults : Defaults)
    (keys : List String) (h : ∀ j ∈ embeddedIn bindings, ∀ keys, e keys j = e' keys j) :
    buildBindings e mode defaults keys bindings = buildBindings e' mode defaults keys bindings := by
  match bindings with
  | [] => rfl
  | (key, binding) :: rest =>
    obtain ⟨hb, hrest⟩ := forall_embeddedIn_cons.mp h
    rw [buildBindings, buildBindings, binding.build_congr defaults (keys ++ [key]) key hb,
      buildBindings_congr rest defaults keys hrest]

end

mutual

theorem Binding.build_eq_ok_congr (binding : Binding) (defaults : Defaults)
    {keys keys' : List String} {key : String} {plan : Plan}
    (h : ∀ j ∈ binding.embedded, ∀ keys keys' p, e keys j = .ok p → e' keys' j = .ok p)
    (hplan : binding.build e mode defaults keys key = .ok plan) :
    binding.build e' mode defaults keys' key = .ok plan := by
  cases binding with
  | path text shape => exact hplan
  | transform f => exact hplan
  | mapper id source =>
    obtain ⟨at?, hat, p, hp, heq⟩ := Binding.build_mapper_eq_ok_iff.mp hplan
    have hp' := h id (mem_embedded_mapper id source) _ keys' p hp
    exact Binding.build_mapper_eq_ok_iff.mpr ⟨at?, hat, p, hp', heq⟩
  | tree bindings =>
    obtain ⟨fields, hfields, heq⟩ := Binding.build_tree_eq_ok_iff.mp hplan
    exact Binding.build_tree_eq_ok_iff.mpr
      ⟨fields, buildBindings_eq_ok_congr bindings _ h hfields, heq⟩

theorem buildBindings_eq_ok_congr (bindings : List (String × Binding)) (defaults : Defaults)
    {keys keys' : List String} {fields : List Field}
    (h : ∀ j ∈ embeddedIn bindings, ∀ keys keys' p, e keys j = .ok p → e' keys' j = .ok p)
    (hf : buildBindings e mode defaults keys bindings = .ok fields) :
    buildBindings e' mode defaults keys' bindings = .ok fields := by
  match bindings with
  | [] => exact hf
  | (key, binding) :: rest =>
    obtain ⟨hb, hrest⟩ := forall_embeddedIn_cons.mp h
    obtain ⟨plan, hplan, others, hothers, heq⟩ := buildBindings_cons_eq_ok_iff.mp hf
    refine buildBindings_cons_eq_ok_iff.mpr ⟨plan, ?_, others, ?_, heq⟩
    · exact binding.build_eq_ok_congr defaults hb hplan
    · exact buildBindings_eq_ok_congr rest defaults hrest hothers

end

end Congruence

namespace Store

variable {s t : Store} {stack : List MapperId} {keys : List String} {id : MapperId}

theorem build_of_mem (h : id ∈ stack) :
    s.build stack keys id = .error (.circularMapper (".".intercalate keys)) := by
  rw [build, if_pos h]

theorem build_of_not_mem (h : id ∉ stack) :
    s.build stack keys id =
      (s.mapper id).config.build (s.build (id :: stack)) (s.mapper id).mode
        (s.mapper id).defaults keys := by
  rw [build, if_neg h]
  split
  · rfl
  · rename_i hid
    rw [mapper_of_size_le (Nat.le_of_not_lt hid)]
    rfl

/-- Building depends on the mappers of a set only, if they embed no others. -/
theorem build_congr (C : MapperId → Prop) (hc : ∀ i, C i → ∀ j, s.Embeds i j → C j)
    (hm : ∀ i, C i → (s.mapper i).forget = (t.mapper i).forget) (hid : C id) :
    s.build stack keys id = t.build stack keys id := by
  induction stack, id using s.entering_induction generalizing keys with
  | entered stack id hmem => rw [build_of_mem hmem, build_of_mem hmem]
  | enter stack id hmem ih =>
    have hconfig : (s.mapper id).config = (t.mapper id).config :=
      (congrArg Mapper.config (hm id hid) :)
    have hmode : (s.mapper id).mode = (t.mapper id).mode := (congrArg Mapper.mode (hm id hid) :)
    have hdefaults : (s.mapper id).defaults = (t.mapper id).defaults :=
      (congrArg Mapper.defaults (hm id hid) :)
    rw [build_of_not_mem hmem, build_of_not_mem hmem, ← hconfig, ← hmode, ← hdefaults]
    refine congrArg (Procedure.mk _ <$> ·) (buildBindings_congr _ _ _ fun j hj keys => ?_)
    exact ih j hj (hc id hid j hj)

theorem build_eq_of_forget (h : s.forget = t.forget) :
    s.build stack keys id = t.build stack keys id :=
  build_congr (fun _ => True) (fun _ _ _ _ => trivial) (fun i _ => forget_mapper_eq h i) trivial

end Store

end Reshape
