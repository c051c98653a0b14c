-- SUMMARY: Steps of a run that give nothing up: options, dumps, declared types.
import StorageSnapshot.Dump
import StorageSnapshot.Proofs.Aborts

/-!
# Steps that give nothing up

A run does more than decode. It merges options, reads the dump, and finds out what types its
variables were declared with. It may warn of what it meets there, but on topics of their own: no
value is given up before it is asked for.
-/

namespace StorageSnapshot

open Traced (Silent)

/-! ## Options -/

namespace Options

theorem silent_keep (o : Options) (name : String) (isSame : Bool) (mine : Except DataError String)
    (given : Datum) : Silent (o.keep name isSame mine given) := by
  refine Silent.ite ?_ (.pure _)
  refine (Silent.lift _).bind fun mine => (Silent.lift _).bind fun theirs => ?_
  exact (Silent.warning (by decide) _).bind fun _ => .pure _

theorem silent_absorb (o : Options) (name : OptionName) (given : Datum) :
    Silent (o.absorb name given) :=
  (Silent.lift _).bind fun _ => .ite (.pure _) (o.silent_keep ..)

theorem silent_absorbReserved (o : Options) (name : String) (meaning : Reserved) (given : Datum) :
    Silent (o.absorbReserved name meaning given) := by
  cases meaning with
  | observers => exact .fail _
  | mark => exact .ite (o.silent_keep ..) (.pure _)
  | _ => exact o.silent_keep ..

theorem silent_absorbMember (o : Options) (name : String) (given : Datum)
    {step : Traced Fault Options} (h : o.absorbMember? name given = some step) : Silent step := by
  unfold absorbMember? at h
  split at h
  next n _ =>
    rw [Option.some.injEq] at h
    exact h ▸ o.silent_absorb n given
  next =>
    obtain ⟨meaning, -, hmeaning⟩ := Option.map_eq_some_iff.1 h
    exact hmeaning ▸ o.silent_absorbReserved name meaning given

/-- What a dump file says about options is no news about values. -/
theorem silent_absorbAll (o : Options) (ms : List (String × Datum)) :
    Silent (o.absorbAll ms).2 := by
  induction ms generalizing o with
  | nil => exact .pure _
  | cons m ms ih =>
    obtain ⟨name, given⟩ := m
    unfold absorbAll
    split
    · exact (ih o).bind fun _ => .pure _
    · split
      next => exact .fail _
      next step hstep =>
        have hsilent := o.silent_absorbMember name given hstep
        split
        next => exact hsilent
        next o' _ => exact hsilent.after (ih o')

theorem silent_merge (o : Options) (conf : List (String × Datum)) : Silent (o.merge conf).2 :=
  (o.silent_absorbAll conf).bind fun _ => (Silent.lift _).bind fun _ => .pure _

theorem silent_limits (o : Options) : Silent o.limits := by
  refine (Silent.lift _).bind fun length => (Silent.lift _).bind fun depth => ?_
  refine (Silent.lift _).bind fun limits => (Silent.lift _).bind fun text => ?_
  exact (Silent.debug _ _).bind fun _ => .pure _

end Options

/-! ## State variables -/

namespace StateVariable

theorem silent_checkSize (v : StateVariable) (r : Resolver) (t : Ty) (reported : Nat) :
    Silent (v.checkSize r t reported) := by
  refine (r.silent_sizeOf t).bind fun size => ?_
  split
  · refine (Silent.lift _).bind fun _ => (Silent.lift _).bind fun _ =>
      (Silent.lift _).bind fun _ => ?_
    exact .warning (by decide) _
  · exact .pure _

/-- A type that is not known is not given up here: whoever asks for it does that. -/
theorem silent_declaredType (v : StateVariable) (index : Ast.Index) :
    Silent (v.declaredType index) := by
  unfold declaredType
  split
  next => exact .fail _
  next =>
    refine (Silent.lift _).bind fun node => ?_
    split
    · exact .fail _
    refine (Silent.lift _).bind fun typeName => ?_
    refine (index.resolver.silent_boundedTypeOfName typeName).bind fun type => ?_
    split
    next => exact .pure _
    next size _ =>
      split
      · exact (v.silent_checkSize index.resolver type size).bind fun _ => .pure _
      · exact .pure _

end StateVariable

/-! ## Dumps -/

theorem Ast.Index.silent_ofSources (sources : Datum) : Silent (ofSources sources) := by
  refine (Silent.lift _).bind fun files => .foldlM (fun index file => ?_) files _
  obtain ⟨name, source⟩ := file
  cases source with
  | object ms =>
    dsimp only
    split
    next => exact (Silent.debug _ _).bind fun _ => .lift _
    next => exact .fail _
  | _ => exact .fail _

namespace Dump

theorem silent_readFile (files : FileTree) (o : Options) : Silent (readFile files o).2 := by
  unfold readFile
  split
  next => exact .fail _
  next ms _ => exact (o.silent_merge ms).mapError _

theorem silent_read (files : List Record → FileTree) (o : Options) : Silent (read files o).2 := by
  have hfile := silent_readFile (files []) o
  unfold read
  generalize readFile (files []) o = file at hfile ⊢
  obtain ⟨o', data⟩ := file
  refine Silent.bind hfile fun ms => (Silent.lift _).bind fun parts => ?_
  obtain ⟨layout, sources⟩ := parts
  refine (Silent.lift _).bind fun words => (Silent.lift _).bind fun store => ?_
  refine (Silent.debug _ _).bind fun _ => (Ast.Index.silent_ofSources sources).bind fun index => ?_
  exact (Silent.lift _).bind fun state => o'.silent_limits.bind fun _ => .pure _

end Dump

end StorageSnapshot
