import TensorJit.Proofs.Backend
import TensorJit.Proofs.Function.Typed

/-!
# Calling an executable

A call evaluates the function on what the input tensors hold, and leaves the results in the
output tensors, as the bytes of their words. **It fails exactly when evaluation does**, if only
the tensors fit: each output tensor takes the bytes of its result, and no two of them have
storage in common.
-/

namespace TensorJit

/-! ### Words and bytes -/

theorem Tensor.length_wordsOfBytes (bytes : Bytes) :
    (wordsOfBytes bytes).length = bytes.length / 4 := by
  unfold wordsOfBytes
  rw [List.length_map, Bytes.length_chunks]

theorem Tensor.length_bytesOfWords (words : List UInt32) :
    (bytesOfWords words).length = words.length * 4 := by
  unfold bytesOfWords
  induction words with
  | nil => rfl
  | cons w words ih =>
    rw [List.flatMap_cons, List.length_append, Bytes.length_ofNat, ih, List.length_cons]
    omega

/-- The bytes of a value that is as long as its spec says. -/
theorem Value.Sized.length_bytes {v : Value UInt32} (h : v.Sized) :
    (Tensor.bytesOfWords v.data).length = v.spec.byteLength := by
  rw [Tensor.length_bytesOfWords, h.2]
  unfold TensorSpec.byteLength
  rw [h.1]
  rfl

namespace Backend

variable {f : Function} {m : Memory}

/-! ### Parameters -/

theorem parametersOf_getElem? (κ : BackendKind) (m : Memory) (declared : List TensorSpec)
    (inputs : List (Option TensorId)) (position : Nat) :
    (parametersOf κ m declared inputs)[position]? = (declared[position]?).map fun spec =>
      (inputs[position]?).join.bind (parameterOf κ m spec) := by
  induction declared generalizing inputs position with
  | nil => rfl
  | cons spec rest ih =>
    cases inputs with
    | nil =>
      cases position with
      | zero => rfl
      | succ position => exact ih [] position
    | cons input inputs =>
      cases position with
      | zero => rfl
      | succ position => exact ih inputs position

/-- The value of a tensor, whose spec has to be the declared one only on the reference backend. -/
theorem parameterOf_eq {κ : BackendKind} {spec : TensorSpec} {id : TensorId}
    (hspec : κ = .reference → spec = (m.tensor id).spec) : parameterOf κ m spec id =
      if (m.tensor id).spec.dtype = .f32 then
        some ⟨(m.tensor id).spec, Tensor.wordsOfBytes (m.contents id)⟩ else none := by
  unfold parameterOf valueOf
  cases κ with
  | reference => rw [hspec rfl]
  | recording mode => rfl

/-- The input tensors have the declared specs and are filled. -/
def Supplied (f : Function) (m : Memory) (inputs : List (Option TensorId)) : Prop :=
  ∀ (q : Nat) (id : TensorId), inputs[q]? = some (some id) →
    f.parameters[q]? = some (m.tensor id).spec ∧
      (m.contents id).length = (m.tensor id).spec.byteLength

/-- Filled tensors give parameters that fit. -/
theorem Supplied.fits {inputs : List (Option TensorId)} (h : Supplied f m inputs)
    (κ : BackendKind) : f.Fits (parametersOf κ m f.parameters inputs) := by
  intro position v hv
  rw [parametersOf_getElem?] at hv
  obtain ⟨spec, hspec, hv⟩ := Option.map_eq_some_iff.1 hv
  obtain ⟨id, hid, hv⟩ := Option.bind_eq_some_iff.1 hv
  obtain ⟨hdeclared, hlen⟩ := h position id (Option.join_eq_some_iff.1 hid)
  cases hspec.symm.trans hdeclared
  rw [parameterOf_eq fun _ => rfl] at hv
  split at hv
  · rename_i hdtype
    cases hv
    refine ⟨hdeclared, hdtype, ?_⟩
    rw [Tensor.length_wordsOfBytes, hlen]
    unfold TensorSpec.byteLength
    rw [hdtype]
    exact Nat.mul_div_cancel _ (by decide)
  · cases hv

/-! ### Results -/

/-- What is written where when results are stored. -/
def writesOf (outputs : List (Option TensorId)) (results : List (Value UInt32)) :
    List (TensorId × Bytes) :=
  (outputs.zip results).filterMap fun w => w.1.map (·, Tensor.bytesOfWords w.2.data)

theorem mem_writesOf {outputs : List (Option TensorId)} {results : List (Value UInt32)}
    {w : TensorId × Bytes} : w ∈ writesOf outputs results ↔ ∃ (p : Nat) (v : Value UInt32),
      outputs[p]? = some (some w.1) ∧ results[p]? = some v ∧
        w.2 = Tensor.bytesOfWords v.data := by
  unfold writesOf
  rw [List.mem_filterMap]
  constructor
  · rintro ⟨⟨o, v⟩, hmem, hw⟩
    obtain ⟨p, hp⟩ := List.getElem?_of_mem hmem
    obtain ⟨ho, hv⟩ := List.getElem?_zip_eq_some.1 hp
    obtain ⟨id, hid, rfl⟩ := Option.map_eq_some_iff.1 hw
    exact ⟨p, v, by rw [ho]; exact congrArg some hid, hv, rfl⟩
  · rintro ⟨p, v, ho, hv, hw⟩
    refine ⟨(some w.1, v), ?_, ?_⟩
    · exact List.mem_of_getElem? (List.getElem?_zip_eq_some.2 ⟨ho, hv⟩)
    · rw [← hw]
      rfl

/-- The output tensors are ready for results of the given specs. -/
structure Ready (m : Memory) (outputs : List (Option TensorId)) (specs : List TensorSpec) :
    Prop where
  /-- Each takes the bytes of its result. -/
  takes : ∀ (p : Nat) (id : TensorId), outputs[p]? = some (some id) →
    specs[p]? = some (m.tensor id).spec ∧
      ∀ bytes, bytes.length = (m.tensor id).spec.byteLength → m.Takes id bytes
  /-- No two of them have storage in common. -/
  apart : ∀ (p q : Nat) (i j : TensorId), p ≠ q → outputs[p]? = some (some i) →
    outputs[q]? = some (some j) → m.Apart i j

theorem Ready.tail {output : Option TensorId} {outputs : List (Option TensorId)}
    {spec : TensorSpec} {specs : List TensorSpec} (h : Ready m (output :: outputs) (spec :: specs)) :
    Ready m outputs specs :=
  ⟨fun p id hid => h.takes (p + 1) id hid,
    fun p q i j hpq hi hj => h.apart (p + 1) (q + 1) i j (fun heq => hpq (Nat.succ.inj heq)) hi hj⟩

/-- **Storing one result.** -/
theorem ends_store {d : Device} {id : TensorId} {v : Value UInt32} (hv : v.Sized)
    (hspec : (d.memory.tensor id).spec = v.spec)
    (htakes : d.memory.Takes id (Tensor.bytesOfWords v.data)) :
    Ends (store id v d)
      (fun _ e => d.memory.Written [(id, Tensor.bytesOfWords v.data)] e.memory) fun _ _ => False := by
  have hover : d.memory.overwrite? id (Tensor.bytesOfWords v.data) 0 =
      some (d.memory.setContents id (Tensor.bytesOfWords v.data)) := by
    have hlen := htakes.length
    unfold Memory.overwrite? Bytes.overwrite?
    rw [if_pos (by omega), List.take_zero, List.nil_append, Nat.zero_add,
      List.drop_of_length_le (by omega), List.append_nil]
    rfl
  unfold store
  rw [ends_bind, ends_get]
  dsimp only
  rw [if_neg fun h => h.2 (by rw [hspec, hv.2])]
  unfold overwrite
  rw [ends_bind, ends_bind, ends_get, hover]
  exact Memory.written_setContents htakes false

/-- **Storing all results**, one after the other. -/
theorem ends_storeAll {outputs : List (Option TensorId)} {results : List (Value UInt32)}
    {d : Device} (hsized : ∀ v ∈ results, v.Sized)
    (h : Ready d.memory outputs (results.map (·.spec))) :
    Ends (storeAll outputs results d)
      (fun _ e => d.memory.Written (writesOf outputs results) e.memory) fun _ _ => False := by
  induction outputs generalizing results d with
  | nil => exact .nil d.memory
  | cons output outputs ih =>
    cases results with
    | nil =>
      cases output with
      | none => exact .nil d.memory
      | some id => exact .nil d.memory
    | cons v results =>
      have htail : Ready d.memory outputs (results.map (·.spec)) := h.tail
      have hsized' : ∀ w ∈ results, w.Sized := fun w hw => hsized w (List.mem_cons_of_mem _ hw)
      cases output with
      | none => exact ih hsized' htail
      | some id =>
        have hv := hsized v List.mem_cons_self
        obtain ⟨hspec, htakes⟩ := h.takes 0 id rfl
        have hspec' : (d.memory.tensor id).spec = v.spec := (Option.some.inj hspec).symm
        have htake := htakes (Tensor.bytesOfWords v.data) (by rw [hv.length_bytes, hspec'])
        have hlive : ∀ (q : Nat) (j : TensorId), outputs[q]? = some (some j) →
            j < d.memory.tensors.size := fun q j hj =>
          ((htail.takes q j hj).2 (List.replicate _ 0) (List.length_replicate)).live
        have happart : ∀ (q : Nat) (j : TensorId), outputs[q]? = some (some j) →
            d.memory.Apart id j := fun q j hj => h.apart 0 (q + 1) id j nofun rfl hj
        unfold storeAll
        rw [ends_bind]
        refine (ends_store hv hspec' htake).mono (fun _ e he => ?_) fun _ _ h => h
        -- The other tensors are apart from the one written, so they can still take what is to come.
        have hready : Ready e.memory outputs (results.map (·.spec)) := by
          refine ⟨fun q j hj => ?_, fun p q i j hpq hi hj => ?_⟩
          · obtain ⟨hs, ht⟩ := htail.takes q j hj
            rw [he.grown.spec j (hlive q j hj)]
            refine ⟨hs, fun bytes hb => (ht bytes hb).of_written he fun w hw => ?_⟩
            obtain rfl := List.mem_singleton.1 hw
            exact happart q j hj
          · exact (htail.apart p q i j hpq hi hj).of_extends he.grown (hlive p i hi) (hlive q j hj)
        refine (ih hsized' hready).mono (fun _ e' he' => ?_) fun _ _ h => h
        refine he.cons he' htake.live (fun w hw => ?_) fun w hw => ?_
        · obtain ⟨q, -, hq, -⟩ := mem_writesOf.1 hw
          exact hlive q w.1 hq
        · obtain ⟨q, -, hq, -⟩ := mem_writesOf.1 hw
          exact (happart q w.1 hq).symm

/-- **Calling an executable** evaluates its function on what the input tensors hold, and stores
the results. -/
theorem ends_call {d : Device} {inputs outputs : List (Option TensorId)} (htyped : f.Typed)
    (hinputs : Supplied f d.memory inputs) (houtputs : Ready d.memory outputs f.results) :
    Ends (call ⟨f⟩ outputs inputs d)
      (fun _ e => ∃ results, f.evaluate .binary32
          (parametersOf d.backend.kind d.memory f.parameters inputs) = .ok results ∧
        results.map (·.spec) = f.results ∧ (∀ v ∈ results, v.Sized) ∧
        d.memory.Written (writesOf outputs results) e.memory)
      fun _ e => (∃ fault, f.evaluate .binary32
          (parametersOf d.backend.kind d.memory f.parameters inputs) = .error fault) ∧
        e.memory = d.memory := by
  unfold call
  rw [ends_bind]
  change Ends ((get >>= _ : BackendM Unit) { d with backend.counters := _ }) _ _
  rw [ends_bind, ends_get]
  dsimp only
  cases heval : f.evaluate .binary32
      (parametersOf d.backend.kind d.memory f.parameters inputs) with
  | error fault => exact ⟨⟨fault, rfl⟩, rfl⟩
  | ok results =>
    obtain ⟨hspecs, hsized⟩ := htyped.evaluate_sized (hinputs.fits _) heval
    exact (ends_storeAll hsized (hspecs ▸ houtputs)).mono
      (fun _ e he => ⟨results, rfl, hspecs, hsized, he⟩) fun _ _ h => h.elim

/-! ### Whatever the function -/

theorem rewritten_overwrite (id : TensorId) (source : Bytes) (offset : Nat) :
    Keeps (fun d e : Device => d.memory.Rewritten [some id] e.memory)
      (overwrite id source offset) := by
  intro d
  unfold overwrite
  rw [ends_bind, ends_get]
  cases hover : d.memory.overwrite? id source offset with
  | none =>
    cases d.backend.kind with
    | reference => exact Memory.Rewritten.refl d.memory _
    | recording mode => exact Memory.Rewritten.refl d.memory _
  | some m =>
    obtain ⟨bytes, -, hlen, rfl⟩ := Memory.overwrite?_eq_some hover
    exact d.memory.rewritten_setContents id hlen

theorem rewritten_write (id : TensorId) (source : Bytes) (offset : Nat) :
    Keeps (fun d e : Device => d.memory.Rewritten [some id] e.memory) (write id source offset) :=
  fun d => ends_bind.2 (rewritten_overwrite id source offset d)

/-- Reading writes nothing. -/
theorem memory_read (id : TensorId) (length offset : Nat) :
    Keeps (fun d e : Device => e.memory = d.memory) (read id length offset) := by
  intro d
  unfold read
  rw [ends_bind, ends_get]
  cases (d.memory.contents id).slice? offset length with
  | some bytes => exact rfl
  | none =>
    cases d.backend.kind with
    | reference => exact rfl
    | recording mode => exact rfl

/-- **Whatever is stored**, and whether or not it fits, nothing else is written to. -/
theorem rewritten_storeAll (outputs : List (Option TensorId)) (results : List (Value UInt32)) :
    Keeps (fun d e : Device => d.memory.Rewritten outputs e.memory) (storeAll outputs results) := by
  induction outputs generalizing results with
  | nil => exact fun d => .refl d.memory _
  | cons output outputs ih =>
    have hrest : ∀ results (d e : Device), d.memory.Rewritten (output :: outputs) e.memory →
        Ends (storeAll outputs results e)
          (fun _ f => d.memory.Rewritten (output :: outputs) f.memory)
          fun _ f => d.memory.Rewritten (output :: outputs) f.memory := fun results d e he =>
      (ih results e).mono (fun _ f hf => he.trans (hf.mono fun _ => List.mem_cons_of_mem _))
        fun _ f hf => he.trans (hf.mono fun _ => List.mem_cons_of_mem _)
    cases results with
    | nil =>
      cases output with
      | none => exact fun d => .refl d.memory _
      | some id => exact fun d => .refl d.memory _
    | cons v results =>
      cases output with
      | none => exact fun d => hrest results d d (.refl d.memory _)
      | some id =>
        intro d
        unfold storeAll
        rw [ends_bind]
        have hstore : Ends (store id v d) (fun _ e => d.memory.Rewritten [some id] e.memory)
            fun _ e => d.memory.Rewritten [some id] e.memory := by
          unfold store
          rw [ends_bind, ends_get]
          dsimp only
          split
          · exact .refl d.memory _
          · rw [ends_bind]
            exact (rewritten_overwrite id _ 0 d).mono
              (fun _ e he => he.trans (Memory.rewritten_setStale _ id false)) fun _ _ he => he
        have hmono : ∀ e : Device, d.memory.Rewritten [some id] e.memory →
            d.memory.Rewritten (some id :: outputs) e.memory := fun e he =>
          he.mono fun j hj => List.mem_singleton.1 hj ▸ List.mem_cons_self
        exact hstore.mono (fun _ e he => hrest results d e (hmono e he)) fun _ e he => hmono e he

theorem rewritten_call (x : Executable) (outputs inputs : List (Option TensorId)) :
    Keeps (fun d e : Device => d.memory.Rewritten outputs e.memory) (call x outputs inputs) := by
  intro d
  unfold call
  rw [ends_bind]
  change Ends ((get >>= _ : BackendM Unit) { d with backend.counters := _ }) _ _
  rw [ends_bind, ends_get]
  dsimp only
  cases x.function.evaluate .binary32
      (parametersOf d.backend.kind d.memory x.function.parameters inputs) with
  | error fault => exact .refl d.memory _
  | ok results => exact rewritten_storeAll outputs results _

end Backend

end TensorJit
