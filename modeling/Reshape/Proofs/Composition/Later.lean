import Reshape.Proofs.Composition.Reachable

/-! # Later stores

A mapper that is compiled never changes again, whatever is done with the mappers
of its store. The procedure of a mapper is the same wherever it is embedded.
-/

namespace Reshape

theorem Mapper.eq_of_forget {m m' : Mapper} (h : m.forget = m'.forget)
    (hcompiled : m.compiled = m'.compiled) : m = m' := by
  cases m
  cases m'
  simp_all [Mapper.forget]

namespace Store

/-- A store to which operations lead from another one. -/
inductive Later (s : Store) : Store → Prop where
  | refl : Later s s
  | step {t : Store} {op : Operation} : Later s t → op.Valid t → Later s (t.after op)

variable {s t : Store} {stack stack' : List MapperId} {keys keys' : List String} {id : MapperId}
  {p : Procedure}

theorem build_eq_ok_of_subset (hsub : stack' ⊆ stack) (hp : s.build stack keys id = .ok p) :
    s.build stack' keys' id = .ok p := by
  induction stack, id using s.entering_induction generalizing stack' keys keys' p with
  | entered stack id hmem =>
    rw [build_of_mem hmem] at hp
    cases hp
  | enter stack id hmem ih =>
    rw [build_of_not_mem hmem] at hp
    rw [build_of_not_mem fun h => hmem (hsub h)]
    obtain ⟨fields, hfields, rfl⟩ := Configuration.build_eq_ok_iff.mp hp
    refine Configuration.build_eq_ok_iff.mpr ⟨fields, ?_, rfl⟩
    refine buildBindings_eq_ok_congr _ _ (fun j hj keys keys' q hq => ?_) hfields
    exact ih j hj (List.cons_subset_cons id hsub) hq

theorem Coherent.build_of_compiled (hs : s.Coherent) (hp : (s.mapper id).compiled = some p) :
    s.build [] [] id = .ok p :=
  hs.cached id p hp [] [] (by simp)

theorem Advances.mapper_eq (hs : s.Coherent) (hst : s.Advances stack t) (hid : s.IsCompiled id) :
    t.mapper id = s.mapper id := by
  obtain ⟨p, hp⟩ := isCompiled_iff.mp hid
  obtain ⟨q, hq⟩ := isCompiled_iff.mp (hst.kept id hid)
  have hbuild := hst.coherent.build_of_compiled hq
  rw [build_eq_of_forget hst.forget, hs.build_of_compiled hp] at hbuild
  obtain rfl := Except.ok.inj hbuild
  exact Mapper.eq_of_forget (forget_mapper_eq hst.forget id) (hq.trans hp.symm)

theorem Coherent.mapper_after (hs : s.Coherent) {op : Operation} (hop : op.Valid s)
    (hid : s.IsCompiled id) : (s.after op).mapper id = s.mapper id := by
  cases op with
  | create config defaults mode => exact mapper_add_of_ne (lt_size_of_isCompiled hid).ne
  | configure other edit =>
    rw [Store.after]
    split
    · rename_i t ht
      obtain ⟨hun, rfl⟩ := configure_eq_ok ht
      exact mapper_modify_of_ne _ fun h => hun (h ▸ hid)
    · rfl
  | compile other => exact (hs.advances_compile hop).mapper_eq hs hid
  | execute other source => exact (hs.advances_compile hop).mapper_eq hs hid
  | compileConfiguration config defaults mode =>
    obtain ⟨t, hcompile, hst⟩ := hs.compileConfiguration hop defaults mode
    rw [Store.after, hcompile]
    exact hst.mapper_eq hs hid

theorem Later.trans {u : Store} (h : s.Later t) (h' : t.Later u) : s.Later u := by
  induction h' with
  | refl => exact h
  | step _ hop ih => exact ih.step hop

theorem Later.reachable (h : s.Later t) (hs : s.Reachable) : t.Reachable := by
  induction h with
  | refl => exact hs
  | step _ hop ih => exact ih.step hop

theorem Later.mapper_eq (h : s.Later t) (hs : s.Reachable) (hid : s.IsCompiled id) :
    t.mapper id = s.mapper id := by
  induction h with
  | refl => rfl
  | @step t op h hop ih =>
    have hid' : t.IsCompiled id := by rwa [IsCompiled, ih]
    rw [(h.reachable hs).coherent.mapper_after hop hid', ih]

theorem Later.isCompiled (h : s.Later t) (hs : s.Reachable) (hid : s.IsCompiled id) :
    t.IsCompiled id := by
  rwa [IsCompiled, h.mapper_eq hs hid]

/-- A compiled mapper is run with its procedure in all later stores. -/
theorem Later.execute_eq_run (h : s.Later t) (hs : s.Reachable)
    (hp : (s.mapper id).compiled = some p) (source : Value) :
    (t.execute id source).1 = p.run source := by
  rw [← h.mapper_eq hs (isCompiled_of_eq_some hp)] at hp
  have ht := (h.reachable hs).coherent
  have hid := lt_size_of_isCompiled (isCompiled_of_eq_some hp)
  exact ht.execute_of_build hid (ht.build_of_compiled hp) source

theorem Coherent.compiled_of_embeds (hs : s.Coherent) {i j : MapperId} (hi : s.IsCompiled i)
    (hij : s.Embeds i j) (hp : s.build stack keys j = .ok p) : (s.mapper j).compiled = some p := by
  obtain ⟨q, hq⟩ := isCompiled_iff.mp (hs.frozen i j hi hij)
  have hbuild : s.build [] [] j = .ok p := build_eq_ok_of_subset (List.nil_subset stack) hp
  rw [hs.build_of_compiled hq] at hbuild
  rw [hq, Except.ok.inj hbuild]

end Store

end Reshape
