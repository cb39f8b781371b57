import TensorJit.Graph.Samples
import TensorJit.Proofs.Graph.StaticInputs
import TensorJit.Proofs.Process

/-!
# When no executor is built

A backend is shared by all executors that are built for it, and so are its options. A request that
comes to nothing should leave them alone, and mostly does: what is wrong with the configuration, the
attributes or the name of the backend is found before the options are set, and options of which one
is refused are not set at all.

The graph is analyzed last. **An input without an index is found when the options have been set
already**, and they stay (`options_after_failed_build`), although nothing the analysis looks at
depends on the backend.
-/

namespace TensorJit

/-- **What a failed construction leaves behind.** If no executor is built and the reason is not that
the graph cannot be analyzed, then nothing has changed, and so it is if all inputs of the graph have
indices. If the reason is the graph, then the backend has the options of the request, if there are
any, and nothing else has changed. -/
theorem options_after_failed_build (r : BuildRequest) (p q : Platform) (e : Error)
    (h : Executor.build r p = .error e q) :
    ((∀ fault, e ≠ .construction (.graph fault)) → q = p) ∧
    ((∀ arg ∈ r.unit.graph.nodes, arg.isArg = true → ∃ i, arg.index = .ok i) → q = p) ∧
    ∀ fault, e = .construction (.graph fault) →
      StaticInputs.analyze r.unit.graph r.query = .error fault ∧
      ∃ config options id, r.settings = .ok (config, options) ∧
        p.findBackend r.unit.backendName r.backendClass = .ok id ∧
        q = p.configured id options ∧ (options.isEmpty = true → q = p) := by
  rcases (Executor.ends_build_exact r p).error h with ⟨hne, hq⟩ |
    ⟨fault, config, options, id, rfl, hanalyze, hsettings, hbackend, hq⟩
  · exact ⟨fun _ => hq, fun _ => hq, fun fault he => absurd he (hne fault)⟩
  · refine ⟨fun hne => absurd rfl (hne fault), fun hindices => ?_, fun fault' he => ?_⟩
    · obtain ⟨arg, harg, hisArg, hi⟩ := StaticInputs.analyze_eq_error_iff.1 ⟨fault, hanalyze⟩
      obtain ⟨i, hindex⟩ := hindices arg harg hisArg
      obtain ⟨fault', hfault'⟩ := Node.index_eq_error_iff.2 hi
      cases hindex.symm.trans hfault'
    · cases he
      exact ⟨hanalyze, config, options, id, hsettings, hbackend, hq,
        fun hempty => hq.trans (Platform.configured_of_isEmpty hempty)⟩

/-- A request for an executor of a graph, on a backend in host buffers, with one option. -/
def BuildRequest.withOption (g : Graph) : BuildRequest :=
  let plain := BuildRequest.plain g "host" .recording .never
  { plain with
    unit := { plain.unit with attributes := SortedMap.empty.insert "_encap_device_id" "1" } }

/-- The backend refuses the option, and has none afterwards. -/
theorem unchanged_of_refused : ∃ e q,
    Executor.build (.withOption .sampleAdd)
      (Process.empty.step (.register "host" (.recording .host) (some "device_id"))).platform =
        .error e q ∧
    q = (Process.empty.step (.register "host" (.recording .host) (some "device_id"))).platform := by
  obtain ⟨w, hw⟩ : ∃ w, w = Process.empty.step
      (.register "host" (.recording .host) (some "device_id")) := ⟨_, rfl⟩
  have hlength : (w.step (.build (.withOption .sampleAdd))).executors.length ≠
      w.executors.length + 1 := by
    rw [hw]
    decide +kernel
  have hindices : ∀ arg ∈ Graph.sampleAdd.nodes, arg.isArg = true →
      arg.index.toOption.isSome = true := by decide +kernel
  rw [← hw]
  rcases w.length_executors_build (.withOption .sampleAdd) with ⟨_, _, -, hmore⟩ | ⟨e, q, h, -⟩
  · exact absurd hmore hlength
  · refine ⟨e, q, h, (options_after_failed_build _ w.platform q e h).2.1 fun arg harg hisArg => ?_⟩
    obtain ⟨i, hi⟩ := Option.isSome_iff_exists.1 (hindices arg harg hisArg)
    exact ⟨i, toOption_eq_some.1 hi⟩

/-- One input, without an index, that is returned. -/
def Graph.withoutIndex : Graph :=
  .ofSample [("in", "_Arg", none), ("out", "_Retval", some 0)] [(0, 1, 0)]

/-- **No executor is built for an input without an index, and the backend has the option.** -/
theorem option_of_failed_build :
    (match Executor.build (.withOption .withoutIndex)
        (Process.empty.step (.register "host" (.recording .host) none)).platform with
      | .ok _ _ => none
      | .error _ q => some (q.backend 0).options) = some (SortedMap.empty.insert "device_id" "1") ∧
    ((Process.empty.step (.register "host" (.recording .host) none)).platform.backend 0).options =
      .empty := by
  constructor
  · decide +kernel
  · decide +kernel

end TensorJit
