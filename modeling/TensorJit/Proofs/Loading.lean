import TensorJit.Proofs.Executor.Compile
import TensorJit.Proofs.Function.Delimited

/-!
# What is loaded from a serialized form

An executable is loaded from bytes. Both classes of backends read the function off their beginning
and do not mind what follows; they differ in what they take:

| backend | what it loads |
|---|---|
| recording | every function that is read (`loaded?_of_recording`) |
| reference | of these the ones that it accepts (`loaded?_of_reference`) |

So **a function comes back from its serialized form whatever follows it, nothing is loaded from a
part of it that breaks off, and the classes differ by what is accepted alone**
(`loaded_from_serialized`). What the reference backend has compiled it has accepted, hence it loads
it again.
-/

namespace TensorJit

namespace Backend

/-- The executable that is loaded from bytes, if that goes well. -/
def loaded? (d : Device) (bytes : Bytes) : Option Executable :=
  match load bytes d with
  | .ok e _ => some e
  | .error _ _ => none

theorem loaded?_of_recording {d : Device} {mode : RecordingMode}
    (hd : d.backend.kind = .recording mode) (bytes : Bytes) :
    loaded? d bytes = (Function.deserialize? bytes).map Executable.mk := by
  have hends := ends_load bytes d
  rw [loaded?]
  cases hload : load bytes d with
  | ok e t => exact (hends.ok hload).1.symm
  | error fault t =>
    -- A recording backend fails only if nothing is read.
    cases hread : Function.deserialize? bytes with
    | none => rfl
    | some f =>
      obtain ⟨hkind, -⟩ := (hends.error hload).2 f hread
      cases hd.symm.trans hkind

theorem loaded?_of_reference {d : Device} (hd : d.backend.kind = .reference) (bytes : Bytes) :
    loaded? d bytes = (Function.deserialize? bytes).bind fun f => (accept f).toOption := by
  have hends : Ends (load bytes d)
      (fun e _ => (Function.deserialize? bytes).bind (fun f => (accept f).toOption) = some e)
      fun _ _ => (Function.deserialize? bytes).bind (fun f => (accept f).toOption) = none := by
    rw [load, ends_bind, ends_kindOf, hd]
    cases Function.deserialize? bytes with
    | none => exact rfl
    | some f =>
      change Ends (acceptLive f d) _ _
      rw [acceptLive, Option.bind_some]
      cases accept f with
      | error fault => exact rfl
      | ok e => exact rfl
  rw [loaded?]
  cases hload : load bytes d with
  | ok e t => exact (hends.ok hload).symm
  | error fault t => exact (hends.error hload).symm

/-- **What the reference backend compiles it accepts.** -/
theorem accept_of_compile {f : Function} {d d' : Device} {e : Executable}
    (hd : d.backend.kind = .reference) (h : compile f d = .ok e d') : accept f = .ok e := by
  have hends : Ends (compile f d) (fun e _ => accept f = .ok e) fun _ _ => True := by
    rw [compile, ends_bind, ends_kindOf, hd]
    change Ends (acceptLive f d) _ _
    rw [acceptLive]
    cases accept f with
    | error fault => exact trivial
    | ok x => exact rfl
  exact hends.ok h

end Backend

/-- **Loading is the inverse of serializing.** For a function whose numbers are machine words:

* a recording backend loads exactly this function from its serialized form, whatever follows, and
  nothing from any proper prefix of it;
* a reference backend loads from any bytes what a recording backend loads from them, if it accepts
  that, and nothing otherwise;
* if a reference backend compiles the function, then it loads it again from the serialized form of
  what it has compiled, whatever follows. -/
theorem loaded_from_serialized (f : Function) (hf : f.FitsWords) (d r : Device)
    (mode : RecordingMode) (hd : d.backend.kind = .recording mode)
    (hr : r.backend.kind = .reference) :
    (∀ rest, Backend.loaded? d ((⟨f⟩ : Executable).serialize ++ rest) = some ⟨f⟩) ∧
    (∀ bytes, bytes <+: (⟨f⟩ : Executable).serialize → bytes ≠ (⟨f⟩ : Executable).serialize →
      Backend.loaded? d bytes = none) ∧
    (∀ bytes e, Backend.loaded? r bytes = some e ↔
      Backend.loaded? d bytes = some e ∧ Backend.accept e.function = .ok e) ∧
    ∀ c c' e, c.backend.kind = .reference → Backend.compile f c = .ok e c' →
      e = ⟨f⟩ ∧ ∀ rest, Backend.loaded? r (e.serialize ++ rest) = some e := by
  refine ⟨fun rest => ?_, fun bytes hbytes hne => ?_, fun bytes e => ?_, fun c c' e hc h => ?_⟩
  · rw [Backend.loaded?_of_recording hd, Executable.serialize,
      Function.deserialize?_serialize_append hf, Option.map_some]
  · rw [Backend.loaded?_of_recording hd, Function.deserialize?_eq_none_of_isPrefix hf hbytes hne,
      Option.map_none]
  · rw [Backend.loaded?_of_reference hr, Backend.loaded?_of_recording hd]
    cases Function.deserialize? bytes with
    | none => exact ⟨nofun, fun h => nomatch h.1⟩
    | some g =>
      rw [Option.bind_some, Option.map_some, toOption_eq_some, Option.some.injEq]
      constructor
      · intro haccept
        obtain rfl := Backend.accept_eq_ok haccept
        exact ⟨rfl, haccept⟩
      · rintro ⟨rfl, haccept⟩
        exact haccept
  · have haccept := Backend.accept_of_compile hc h
    obtain rfl := Backend.accept_eq_ok haccept
    refine ⟨rfl, fun rest => ?_⟩
    rw [Backend.loaded?_of_reference hr, Executable.serialize,
      Function.deserialize?_serialize_append hf, Option.bind_some, haccept]
    rfl

/-- The difference of two vectors, reshaped, under a name that is not ASCII. -/
def Function.sampleDifference : Function where
  name := "diff✓"
  parameters := [⟨.f32, [4]⟩, ⟨.f32, [4]⟩]
  results := [⟨.f32, [2, 2]⟩]
  body := [⟨.sub, [.parameter 0, .parameter 1], ⟨.f32, [4]⟩⟩,
    ⟨.reshape, [.instruction 0], ⟨.f32, [2, 2]⟩⟩]
  outputs := [.instruction 1]

/-- It is compiled, and loaded although more follows, but not from its first 100 bytes. -/
theorem loaded_of_difference :
    Function.sampleDifference.FitsWords ∧
    Backend.loaded? ⟨.new "dev" (.recording .device) none, default⟩
      ((⟨.sampleDifference⟩ : Executable).serialize ++ [0, 255]) = some ⟨.sampleDifference⟩ ∧
    Backend.loaded? ⟨.new "dev" (.recording .device) none, default⟩
      ((⟨.sampleDifference⟩ : Executable).serialize.take 100) = none ∧
    ∃ c', Backend.compile .sampleDifference ⟨.new "cpu" .reference none, default⟩ =
        .ok ⟨.sampleDifference⟩ c' ∧
      Backend.loaded? ⟨.new "other" .reference none, default⟩
        ((⟨.sampleDifference⟩ : Executable).serialize ++ [1]) = some ⟨.sampleDifference⟩ := by
  have hfits : Function.sampleDifference.FitsWords := by decide +kernel
  obtain ⟨hloads, hbreaks, -, hcompiled⟩ := loaded_from_serialized .sampleDifference hfits
    ⟨.new "dev" (.recording .device) none, default⟩ ⟨.new "other" .reference none, default⟩
    .device rfl rfl
  have hcompile : Backend.compile .sampleDifference ⟨.new "cpu" .reference none, default⟩ =
      .ok ⟨.sampleDifference⟩
        ⟨{ Backend.new "cpu" .reference none with counters.live := 1 }, default⟩ := rfl
  refine ⟨hfits, hloads [0, 255], hbreaks _ (List.take_prefix 100 _) ?_, _, hcompile,
    (hcompiled _ _ _ rfl hcompile).2 [1]⟩
  decide +kernel

end TensorJit
