import Rollout.Proofs.Expansion

/-!
Parameters that see nothing of what is resolved before them but the configurations they refer to.
The built-in decoders make no others, and a configuration has those that its decoders make.
-/

namespace Rollout

/-- Whatever else is resolved, the parameter resolves to the same. -/
def Parameter.Faithful (parameter : Parameter) : Prop :=
  ∀ (coordinate : Coordinate) (name : String) (vars : Variables) (store other : EntityStore),
    (∀ target ∈ parameter.targets, store.get? target = other.get? target) →
    parameter.resolve ⟨coordinate, name, store, vars⟩
      = parameter.resolve ⟨coordinate, name, other, vars⟩

theorem Parameter.faithful_of_isBuiltin {parameter : Parameter}
    (builtin : parameter.isBuiltin = true)
    : parameter.Faithful := by
  intro coordinate name vars store other seen
  cases parameter with
  | value v => rfl
  | reference target =>
      have found := seen target.target (by simp [targets, references])
      simp only [resolve, lookup, found]
  | environment key default => rfl
  | list values => rfl
  | custom => cases builtin

-----------------------------------------------------------------------------------------
-- Decoders
-----------------------------------------------------------------------------------------

/-- A decoder that makes parameters of built-in kinds only. -/
def Decoder.IsBuiltin (decoder : Decoder) : Prop :=
  ∀ context parameter, decoder context = .ok parameter → parameter.isBuiltin = true

namespace Decoder

theorem isBuiltin_value : IsBuiltin value := by
  intro context parameter decoded
  unfold value at decoded
  split at decoded
  · cases decoded
    rfl
  · cases decoded

theorem isBuiltin_reference : IsBuiltin reference := by
  intro context parameter decoded
  simp only [reference, bind, Except.bind, pure, Except.pure] at decoded
  repeat' split at decoded
  all_goals cases decoded
  rfl

theorem isBuiltin_environment : IsBuiltin environment := by
  intro context parameter decoded
  simp only [environment, bind, Except.bind, pure, Except.pure] at decoded
  repeat' split at decoded
  all_goals cases decoded
  rfl

theorem isBuiltin_list : IsBuiltin list := by
  intro context parameter decoded
  unfold list at decoded
  split at decoded
  · cases decoded
    rfl
  all_goals cases decoded

end Decoder

namespace DecoderRegistry

/-- All parameters that the registry makes are faithful. -/
def Faithful (registry : DecoderRegistry) : Prop :=
  ∀ context parameter, registry.decode context = .ok parameter → parameter.Faithful

theorem get?_register (registry : DecoderRegistry) (kind other : String) (decoder : Decoder)
    : (registry.register kind decoder).get? other
      = if other = kind then some decoder else registry.get? other := by
  simp only [get?, register, SortedMap.get?_insert, Std.LawfulEqCmp.compare_eq_iff_eq]

theorem isBuiltin_of_get? {kind : String} {decoder : Decoder}
    (found : builtins.get? kind = some decoder)
    : decoder.IsBuiltin := by
  simp only [builtins, get?_register] at found
  split at found
  · exact Option.some.inj found ▸ Decoder.isBuiltin_list
  split at found
  · exact Option.some.inj found ▸ Decoder.isBuiltin_environment
  split at found
  · exact Option.some.inj found ▸ Decoder.isBuiltin_reference
  split at found
  · exact Option.some.inj found ▸ Decoder.isBuiltin_value
  · cases found

theorem faithful_builtins : builtins.Faithful := by
  intro context parameter decoded
  simp only [decode] at decoded
  split at decoded
  next found => exact Parameter.faithful_of_isBuiltin (isBuiltin_of_get? found _ _ decoded)
  next => cases decoded

end DecoderRegistry

-----------------------------------------------------------------------------------------
-- The parameters of a configuration
-----------------------------------------------------------------------------------------

/-- A short reference and a literal are of built-in kinds, so only the decoders count. -/
theorem Binder.faithful_of_resolve {binder : Binder} (faithful : binder.registry.Faithful)
    {name : String} {raw : RawParameter} {parameter : Parameter}
    (typed : binder.resolve name raw = .ok parameter)
    : parameter.Faithful := by
  unfold resolve at typed
  split at typed
  · cases typed
  cases raw with
  | shortReference elements =>
      refine Parameter.faithful_of_isBuiltin ?_
      simp only [shortReference, bind, Except.bind] at typed
      repeat' split at typed
      all_goals cases typed
      rfl
  | typed entries =>
      simp only at typed
      split at typed
      next decoded =>
        cases typed
        exact faithful _ _ decoded
      next => cases typed
  | literal value =>
      cases typed
      exact Parameter.faithful_of_isBuiltin rfl

theorem Binder.faithful_of_add {binder : Binder} (faithful : binder.registry.Faithful)
    {name : String} {raw : RawParameter} {parameter : Parameter}
    (typed : (binder.add name raw).1 = .ok parameter)
    : parameter.Faithful :=
  faithful_of_resolve faithful (fst_add_eq_ok_iff.mp typed).1

theorem Expansion.faithful_of_build {e : Expansion} (faithful : e.decoders.Faithful)
    {environment : Environment} {c : Configuration} (built : e.build environment = .ok c)
    : ∀ parameter ∈ c.parameters.values, parameter.Faithful := by
  obtain ⟨_, _, _, _, _, rfl⟩ := build_eq_ok_iff.mp built
  intro parameter member
  obtain ⟨⟨name, _⟩, entry, rfl⟩ := List.mem_map.mp member
  obtain ⟨raw, _, typed⟩ := get?_parameters_bind.mp (SortedMap.get?_eq_some_iff.mpr entry)
  exact Binder.faithful_of_add faithful typed

end Rollout
