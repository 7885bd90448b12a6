import HttpBinding.Interface.Members
import HttpBinding.Proofs.Entries

/-!
# What survives overriding

The members of an interface are collected along its lineage, the farthest ancestor first,
so that what is declared again replaces what was there. Which member an interface ends up
with under a name can be told without that run: it is what the nearest interface that
declares the name says of it last. The methods are those of the survivors that are public
functions, each name once.
-/

namespace HttpBinding

namespace Interfaces

variable {interfaces : Interfaces} {api name : String}

/--
What an interface has under a name: what the nearest interface of its lineage that declares
the name says of it last.
-/
def survivor? (interfaces : Interfaces) (api name : String) : Option Member :=
  (interfaces.declarer? api name).bind fun i => i.members.reverse.lookup name

theorem lookup_flatMap_members (lineage : List InterfaceDecl) (name : String) :
    (lineage.flatMap fun i => i.members.reverse).lookup name =
      (lineage.find? fun i => (i.members.lookup name).isSome).bind fun i =>
        i.members.reverse.lookup name := by
  induction lineage with
  | nil => rfl
  | cons i rest ih =>
      rw [List.flatMap_cons, List.lookup_append, ih, List.find?_cons]
      cases hdeclared : (i.members.lookup name).isSome with
      | true =>
          rw [← Entries.isSome_lookup_reverse] at hdeclared
          obtain ⟨member, hmember⟩ := Option.isSome_iff_exists.mp hdeclared
          simp [hmember]
      | false =>
          rw [← Entries.isSome_lookup_reverse] at hdeclared
          have hnone : i.members.reverse.lookup name = none := by simpa using hdeclared
          simp [hnone]

theorem lookup_members (interfaces : Interfaces) (api name : String) :
    (interfaces.members api).lookup name = interfaces.survivor? api name := by
  -- The last pair under a name is the first one of the nearest interface that has any.
  rw [members, Entries.lookup_ofPairs, List.reverse_flatMap, List.reverse_reverse]
  exact lookup_flatMap_members _ _

theorem nodup_keys_members (interfaces : Interfaces) (api : String) :
    (interfaces.members api).keys.Nodup :=
  Entries.nodup_keys_ofPairs _

theorem mem_methods_iff {m : MethodDecl} :
    (name, m) ∈ interfaces.methods api ↔
      isPrivate name = false ∧ interfaces.survivor? api name = some (.method m) := by
  rw [← lookup_members, Entries.lookup_eq_some_iff (nodup_keys_members interfaces api), methods,
    List.mem_filterMap]
  constructor
  · rintro ⟨⟨name', member⟩, hmember, hentry⟩
    dsimp only at hentry
    split at hentry
    · cases hentry
    next hpublic =>
      cases member with
      | method m' =>
          obtain ⟨rfl, rfl⟩ := Prod.mk.inj (Option.some.inj hentry)
          exact ⟨by simpa using hpublic, hmember⟩
      | _ => cases hentry
  · rintro ⟨hpublic, hmember⟩
    exact ⟨(name, .method m), hmember, by simp [hpublic, methodOf?]⟩

theorem nodup_keys_methods (interfaces : Interfaces) (api : String) :
    (interfaces.methods api).keys.Nodup := by
  refine (nodup_keys_members interfaces api).sublist ?_
  unfold methods
  induction interfaces.members api with
  | nil => exact List.Sublist.slnil
  | cons first rest ih =>
      rw [List.filterMap_cons]
      split
      · exact ih.cons _
      next entry hentry =>
        -- A method is kept under the name of its member.
        have hname : entry.1 = first.1 := by
          split at hentry
          · cases hentry
          · obtain ⟨m, -, rfl⟩ := Option.map_eq_some_iff.mp hentry
            rfl
        rw [Entries.keys, List.map_cons, hname]
        exact ih.cons_cons _

end Interfaces

end HttpBinding
