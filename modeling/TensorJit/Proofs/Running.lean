import TensorJit.Graph.Samples
import TensorJit.Proofs.Lowering.Fed

/-!
# Lowered functions run

A graph is lowered before there are any values, and its function is evaluated without the specs of
its operands being compared again. What lowering has looked at suffices: **a lowered function is
well formed, and if it computes and returns floating point only, then it goes through on all
parameters that are supplied** (`lowered_runs`), with the declared specs and sizes. A parameter that
is not floating point, such as the target of a reshape, is never asked for.
-/

namespace TensorJit

/-- **A lowered function is well formed, takes the inputs it was lowered for, and runs.** Let all of
its instructions and results be floating point. If every floating-point parameter is given a value
of its spec and size, then evaluation returns a value for each result, with the declared spec and as
many elements as it says; the other parameters may be anything, or absent. -/
theorem lowered_runs {α : Type} (arith : Ieee.Arithmetic α) (g : Graph) (inputs : List TensorSpec)
    (statics : List (Option Tensor)) (f : Function) (hlower : g.lower inputs statics = .ok f) :
    f.validate = .ok () ∧ f.parameters = inputs ∧
    ((∀ i ∈ f.body, i.spec.dtype = .f32) → (∀ s ∈ f.results, s.dtype = .f32) →
      ∀ parameters : List (Option (Value α)), f.Supplied parameters →
        ∃ results, f.evaluate arith parameters = .ok results ∧
          results.map (·.spec) = f.results ∧
          ∀ v ∈ results, v.data.length = v.spec.elements) := by
  have hfed := Lowering.lower_fed hlower
  refine ⟨hfed.validate, (Lowering.lower_typed hlower).2, fun hbody hresults parameters hparams => ?_⟩
  obtain ⟨results, heval, hmeets⟩ := hfed.evaluates arith hbody hresults hparams
  refine ⟨results, heval, ?_, fun v hv => ?_⟩
  · have hspecs := hmeets.imp fun _ _ h => h.1.symm
    exact (List.forall₂_eq_eq_eq ▸ List.forall₂_map_right_iff.2 hspecs).symm
  · obtain ⟨k, hk, rfl⟩ := List.getElem_of_mem hv
    obtain ⟨hspec, hsize⟩ := hmeets.get (Nat.lt_of_lt_of_eq hk hmeets.length_eq.symm) hk
    exact hsize.trans (congrArg TensorSpec.elements hspec.symm)

/-- The difference of two inputs, its sign changed, in a shape of which one dimension is inferred;
and the first input itself. -/
def Graph.sampleDifference : Graph :=
  ofSample
    [("x", "_Arg", some 0), ("y", "_Arg", some 1), ("shape", "_Arg", some 2), ("sub", "Sub", none),
      ("neg", "Neg", none), ("reshape", "Reshape", none), ("copy", "Identity", none),
      ("out", "_Retval", some 0), ("copy_out", "_Retval", some 1)]
    [(0, 3, 0), (1, 3, 1), (3, 4, 0), (4, 5, 0), (2, 5, 1), (0, 6, 0), (5, 7, 0), (6, 8, 0)]

/-- The numbers from one to four, four times one, and no value for the shape. -/
def Graph.sampleSupply : List (Option (Value UInt32)) :=
  [some ⟨⟨.f32, [4]⟩, [0x3F800000, 0x40000000, 0x40400000, 0x40800000]⟩,
    some ⟨⟨.f32, [4]⟩, List.replicate 4 0x3F800000⟩, none]

/-- The difference runs on them. -/
theorem runs_of_sampleDifference : ∃ f results,
    Graph.sampleDifference.lower [⟨.f32, [4]⟩, ⟨.f32, [4]⟩, ⟨.i32, [2]⟩]
      [none, none, some ⟨⟨.i32, [2]⟩, [255, 255, 255, 255, 2, 0, 0, 0]⟩] = .ok f ∧
    f.Supplied Graph.sampleSupply ∧ f.evaluate .binary32 Graph.sampleSupply = .ok results ∧
    results.map (·.spec) = [⟨.f32, [2, 2]⟩, ⟨.f32, [4]⟩] ∧
    ∀ v ∈ results, v.data.length = v.spec.elements := by
  obtain ⟨f, hf⟩ : ∃ f : Function, f =
    { name := "ref_cpu_function"
      parameters := [⟨.f32, [4]⟩, ⟨.f32, [4]⟩, ⟨.i32, [2]⟩]
      results := [⟨.f32, [2, 2]⟩, ⟨.f32, [4]⟩]
      body := [⟨.identity, [.parameter 0], ⟨.f32, [4]⟩⟩,
        ⟨.sub, [.parameter 0, .parameter 1], ⟨.f32, [4]⟩⟩, ⟨.neg, [.instruction 1], ⟨.f32, [4]⟩⟩,
        ⟨.reshape, [.instruction 2], ⟨.f32, [2, 2]⟩⟩]
      outputs := [.instruction 3, .instruction 0] } := ⟨_, rfl⟩
  have hlower : Graph.sampleDifference.lower [⟨.f32, [4]⟩, ⟨.f32, [4]⟩, ⟨.i32, [2]⟩]
      [none, none, some ⟨⟨.i32, [2]⟩, [255, 255, 255, 255, 2, 0, 0, 0]⟩] = .ok f := by
    subst hf
    decide +kernel
  have hsupplied : f.Supplied Graph.sampleSupply := by
    subst hf
    refine ⟨rfl, fun position s hs hfloat => ?_⟩
    match position with
    | 0 => exact ⟨_, rfl, Option.some.inj hs, Option.some.inj hs ▸ rfl⟩
    | 1 => exact ⟨_, rfl, Option.some.inj hs, Option.some.inj hs ▸ rfl⟩
    | 2 =>
      obtain rfl := Option.some.inj hs
      cases hfloat
    | _ + 3 => cases hs
  obtain ⟨-, -, hruns⟩ := lowered_runs .binary32 _ _ _ f hlower
  obtain ⟨results, heval, hspecs, hsizes⟩ :=
    hruns (by subst hf; decide) (by subst hf; decide) _ hsupplied
  exact ⟨f, results, hlower, hsupplied, heval, by rw [hspecs, hf], hsizes⟩

end TensorJit
