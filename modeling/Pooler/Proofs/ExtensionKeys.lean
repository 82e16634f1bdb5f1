import Pooler.Lib.Guards
import Pooler.Spec.Protocol.Extensions

/-! ### Extensions written and read back -/

namespace Pooler

open Lib List

theorem ExtensionComponent.new_eq_ok {kind value component} :
    ExtensionComponent.new kind value = .ok component ↔ component.text = value := by
  unfold ExtensionComponent.new
  split_ifs with h
  · cases component
    simp [eq_comm]
  · refine ⟨nofun, fun heq => absurd ?_ h⟩
    rw [← heq]
    exact component.valid

theorem ExtensionKey.parse_eq_ok {value} {key : ExtensionKey} : ExtensionKey.parse value = .ok key ↔
    value = key.asStr ∧ '.' ∉ key.name.text.toList := by
  obtain ⟨nameSpace, name⟩ := key
  unfold ExtensionKey.parse
  constructor
  · intro h
    split at h
    next => cases h
    next hspl =>
      obtain ⟨hval, hdot⟩ := rsplitOnce_eq_some.1 hspl
      simp only [ExtensionKey.new, bind_eq_ok, ExtensionComponent.new_eq_ok] at h
      obtain ⟨x, hx, y, hy, h⟩ := h
      cases h
      rw [asStr, hx, hy]
      refine ⟨String.toList_inj.1 ?_, by simpa using hdot⟩
      simpa using hval
  · rintro ⟨rfl, hdot⟩
    have hspl : rsplitOnce '.' (asStr ⟨nameSpace, name⟩).toList = some (nameSpace.text.toList, name.text.toList) :=
      rsplitOnce_eq_some.2 ⟨by simp [asStr], hdot⟩
    rw [hspl]
    simp only [ExtensionKey.new, bind_eq_ok, ExtensionComponent.new_eq_ok]
    exact ⟨nameSpace, by simp, name, by simp, rfl⟩

namespace Extensions

variable {extensions : Extensions} {key : ExtensionKey} {extension : OpaqueExtension}

theorem keys_put : (extensions.put key extension).map (·.1) =
    if key ∈ extensions.map (·.1) then extensions.map (·.1) else extensions.map (·.1) ++ [key] := by
  unfold put
  split_ifs with h
  · rw [map_map]
    refine map_congr_left fun entry _ => ?_
    simp only [Function.comp_apply]
    split_ifs with hkey
    · exact hkey.symm
    · rfl
  · simp

theorem nodup_put (h : (extensions.map (·.1)).Nodup) : ((extensions.put key extension).map (·.1)).Nodup := by
  rw [keys_put]
  split_ifs with hkey
  · exact h
  · exact nodup_append.2 ⟨h, nodup_singleton _, fun k hk k' hk' heq => hkey (by rwa [← mem_singleton.1 hk', ← heq])⟩

/-- Fields with new keys are put behind what is there. -/
theorem foldlM_put (rest : Extensions) : ∀ before : Extensions, ((before ++ rest).map (·.1)).Nodup →
    (∀ entry ∈ rest, '.' ∉ entry.1.name.text.toList) →
    rest.serialize.foldlM readField before = .ok (before ++ rest) := by
  induction rest with
  | nil => intro before _ _; simp [serialize, pure, Except.pure]
  | cons entry rest ih =>
    intro before hnd hplain
    have hw : entry.1 ∉ before.map (·.1) := by
      rw [map_append, nodup_append] at hnd
      exact fun hmem => hnd.2.2 _ hmem _ (by simp) rfl
    have hput : before.put entry.1 entry.2 = before ++ [entry] := if_neg hw
    have hr := ih (before ++ [entry]) (by simpa using hnd) fun e he => hplain e (mem_cons_of_mem _ he)
    rw [append_assoc, singleton_append, ← hput] at hr
    rw [← hr, serialize, map_cons, foldlM_cons, readField, ExtensionKey.parse_eq_ok.2 ⟨rfl, hplain entry mem_cons_self⟩]
    rfl

theorem plain_of_deserialize {fields} (h : deserialize fields = .ok extensions) :
    ∀ key ∈ extensions.map (·.1), '.' ∉ key.name.text.toList := by
  refine foldlM_ok_invariant (p := fun e : Extensions => ∀ key ∈ e.map (·.1), '.' ∉ key.name.text.toList) ?_ nofun h
  intro before field after _ hbef hstep
  obtain ⟨key, hpar, hput⟩ := bind_eq_ok.1 hstep
  cases hput
  intro k hk
  rw [keys_put] at hk
  split_ifs at hk
  · exact hbef k hk
  · rcases mem_append.1 hk with hk | hk
    · exact hbef k hk
    · rw [mem_singleton.1 hk]
      exact (ExtensionKey.parse_eq_ok.1 hpar).2

/-- A collection survives exactly when no name in it is dotted. -/
theorem extensions_survive_iff (inserted : List OpaqueExtension) :
    let extensions := inserted.foldl Extensions.insert []
    Extensions.deserialize (Extensions.serialize extensions) = .ok extensions ↔
      ∀ entry ∈ extensions, '.' ∉ entry.1.name.text.toList := by
  intro extensions
  have hnd : (extensions.map (·.1)).Nodup :=
    foldlRecOn (motive := fun e : Extensions => (e.map (·.1)).Nodup) inserted Extensions.insert (by simp)
      fun _ h _ _ => nodup_put h
  constructor
  · intro h entry hent
    exact plain_of_deserialize h _ (mem_map_of_mem hent)
  · intro h
    exact foldlM_put extensions [] hnd h

def dotted (nameSpace name : String) (hn : validComponent nameSpace.toList = true := by decide +kernel)
    (hm : validComponent name.toList = true := by decide +kernel) : OpaqueExtension :=
  ⟨⟨nameSpace, hn⟩, ⟨name, hm⟩, "", .never, []⟩

theorem dotted_names_collide :
    (([dotted "a" "b.c", dotted "a.b" "c"].foldl Extensions.insert []).length = 2) ∧
      (Extensions.deserialize (Extensions.serialize ([dotted "a" "b.c", dotted "a.b" "c"].foldl Extensions.insert []))).toOption.map
        List.length = some 1 := by decide +kernel

/-- A collection that was read is written and read again without change. -/
theorem read_extensions_survive (fields : List (String × OpaqueExtension)) :
    (deserialize fields >>= fun extensions => deserialize extensions.serialize) = deserialize fields := by
  cases h : deserialize fields with
  | error => rfl
  | ok extensions =>
    have hnd : (extensions.map (·.1)).Nodup := by
      refine foldlM_ok_invariant (p := fun e : Extensions => (e.map (·.1)).Nodup) ?_ (by simp) h
      intro before field after _ hbef hstep
      obtain ⟨key, -, hput⟩ := bind_eq_ok.1 hstep
      cases hput
      exact nodup_put hbef
    exact foldlM_put extensions [] hnd fun entry hent => plain_of_deserialize h _ (mem_map_of_mem hent)

end Extensions

end Pooler
