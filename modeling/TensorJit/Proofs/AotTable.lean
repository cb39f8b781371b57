import TensorJit.AotTable
import TensorJit.Proofs.SortedMap
import TensorJit.Proofs.Step
import TensorJit.Proofs.Text.Base64

/-!
# Attributes and tables determine each other

A table is read back from the attributes that it is written as, whatever its signatures, executables
and texts are (`UnitAttributes.ofAttributes_toAttributes`); and whatever attributes a table is read
from, they contain it as it is written (`UnitAttributes.attributes_inverse`).

The name of an attribute tells what the attribute is for (`Attributes.roleOf`), and what it is for
tells the name (`Attributes.named_roleOf`). So there are five kinds of attributes that can be read
(`UnitAttributes.Read`), and at every point of the reading, **what has been read is what the
attributes walked over say** (`UnitAttributes.Reads`). Nothing is lost on the way, since an
executable has one text only.
-/

namespace TensorJit

/-! ### Names -/

namespace Attributes

theorem after?_append (mark rest : List Char) : after? mark (mark ++ rest) = some rest := by
  have hprefix : mark.isPrefixOf (mark ++ rest) = true :=
    List.isPrefixOf_iff_prefix.2 (List.prefix_append mark rest)
  unfold after?
  rw [if_pos hprefix, List.drop_left]

/-- What a name is for that begins with a mark of a table. -/
theorem roleOf_of_after? {name : String} {rest : List Char}
    (h : name.toList = aotMark ++ rest) :
    roleOf name = match after? executableMark name.toList, after? functionMark name.toList with
      | some signature, _ => .executable (.ofList signature)
      | none, some signature => .function (.ofList signature)
      | none, none => if name = requestName then .request else .reserved := by
  have hmark : after? mark name.toList = some ("aot_".toList ++ rest) := by
    rw [h]
    exact after?_append mark ("aot_".toList ++ rest)
  have haot : after? aotMark name.toList = some rest := by
    rw [h]
    exact after?_append aotMark rest
  unfold roleOf
  dsimp only
  rw [hmark, haot]
  rfl

@[simp]
theorem roleOf_executableName (signature : Signature) :
    roleOf (executableName signature) = .executable signature := by
  have hname : (executableName signature).toList = executableMark ++ signature.toList :=
    String.toList_ofList
  rw [@roleOf_of_after? _ ("exec_".toList ++ signature.toList) hname, hname, after?_append]
  exact congrArg Role.executable String.ofList_toList

@[simp]
theorem roleOf_functionName (signature : Signature) :
    roleOf (functionName signature) = .function signature := by
  have hname : (functionName signature).toList = functionMark ++ signature.toList :=
    String.toList_ofList
  have hnot : after? executableMark (functionMark ++ signature.toList) = none := rfl
  rw [@roleOf_of_after? _ ("function_".toList ++ signature.toList) hname, hname, hnot,
    after?_append]
  exact congrArg Role.function String.ofList_toList

@[simp]
theorem roleOf_requestName : roleOf requestName = .request := by decide

theorem executableName_injective {σ τ : Signature} (h : executableName σ = executableName τ) :
    σ = τ := by
  have hrole := congrArg roleOf h
  simpa using hrole

theorem functionName_injective {σ τ : Signature} (h : functionName σ = functionName τ) :
    σ = τ := by
  have hrole := congrArg roleOf h
  simpa using hrole

theorem executableName_ne_functionName (σ τ : Signature) :
    executableName σ ≠ functionName τ := fun h => by
  have hrole := congrArg roleOf h
  simp at hrole

theorem requestName_ne_executableName (σ : Signature) :
    requestName ≠ executableName σ := fun h => by
  have hrole := congrArg roleOf h
  simp at hrole

theorem requestName_ne_functionName (σ : Signature) :
    requestName ≠ functionName σ := fun h => by
  have hrole := congrArg roleOf h
  simp at hrole

/-- What a name says after a mark is the rest of it. -/
theorem eq_of_after? {mark name rest : List Char} (h : after? mark name = some rest) :
    name = mark ++ rest := by
  unfold after? at h
  split at h
  · rename_i hprefix
    cases h
    exact (List.prefix_iff_eq_append.1 (List.isPrefixOf_iff_prefix.1 hprefix)).symm
  · cases h

theorem after?_eq_none_iff {mark name : List Char} :
    after? mark name = none ↔ mark.isPrefixOf name = false := by
  unfold after?
  split
  · rename_i h
    simp [h]
  · rename_i h
    exact ⟨fun _ => Bool.eq_false_iff.2 h, fun _ => rfl⟩

/-- Whether a name belongs to a table. -/
def isAot (name : String) : Bool := aotMark.isPrefixOf name.toList

/-- Whether a name belongs to an option. -/
def isOption (name : String) : Bool := mark.isPrefixOf name.toList && !isAot name

/-- What belongs to a table begins with the mark of all attributes. -/
theorem mark_of_isAot {name : String} (h : isAot name = true) :
    mark.isPrefixOf name.toList = true :=
  List.isPrefixOf_iff_prefix.2
    ((List.prefix_append mark "aot_".toList).trans (List.isPrefixOf_iff_prefix.1 h))

/-- The names of a role. -/
def Role.Names : Role → String → Prop
  | .foreign, name => mark.isPrefixOf name.toList = false
  | .executable σ, name => name = executableName σ
  | .function σ, name => name = functionName σ
  | .request, name => name = requestName
  | .reserved, name => isAot name = true
  | .option key, name => isOption name = true ∧ name = optionName key

/-- **What a name is for tells the name.** -/
theorem named_roleOf (name : String) : (roleOf name).Names name := by
  have hname : ∀ {mark rest : List Char}, after? mark name.toList = some rest →
      name = .ofList (mark ++ (String.ofList rest).toList) := fun h => by
    rw [String.toList_ofList, ← eq_of_after? h, String.ofList_toList]
  unfold roleOf
  dsimp only
  split
  · exact after?_eq_none_iff.1 ‹_›
  · rename_i key hkey
    have hmark : mark.isPrefixOf name.toList = true := by
      rw [eq_of_after? hkey]
      exact List.isPrefixOf_iff_prefix.2 (List.prefix_append _ _)
    split
    · rename_i haot
      have hnot : isAot name = false := after?_eq_none_iff.1 (Option.isNone_iff_eq_none.1 haot)
      exact ⟨by rw [isOption, hmark, hnot]; rfl, hname hkey⟩
    · rename_i haot
      have hisAot : isAot name = true := by
        by_contra hnot
        exact haot (Option.isNone_iff_eq_none.2 (after?_eq_none_iff.2 (Bool.eq_false_iff.2 hnot)))
      split
      · exact hname ‹_›
      · exact hname ‹_›
      · split
        · assumption
        · exact hisAot

theorem roleOf_of_isOption {key : String} (h : isOption (optionName key) = true) :
    roleOf (optionName key) = .option key := by
  have hname : (optionName key).toList = mark ++ key.toList := String.toList_ofList
  have haot : after? aotMark (optionName key).toList = none := by
    obtain ⟨-, hnot⟩ := Bool.and_eq_true_iff.1 h
    exact after?_eq_none_iff.2 ((Bool.not_eq_true' _).mp hnot)
  unfold roleOf
  dsimp only
  rw [haot, hname, after?_append]
  exact congrArg Role.option String.ofList_toList

theorem roleOf_of_foreign {name : String} (h : mark.isPrefixOf name.toList = false) :
    roleOf name = .foreign := by
  unfold roleOf
  dsimp only
  rw [after?_eq_none_iff.2 h]

@[simp]
theorem isAot_executableName (σ : Signature) : isAot (executableName σ) = true := by
  unfold isAot executableName
  rw [String.toList_ofList]
  rfl

@[simp]
theorem isAot_functionName (σ : Signature) : isAot (functionName σ) = true := by
  unfold isAot functionName
  rw [String.toList_ofList]
  rfl

@[simp]
theorem isAot_requestName : isAot requestName = true := by decide

theorem isOption_of_isAot {name : String} (h : isAot name = true) : isOption name = false := by
  rw [isOption, h, Bool.not_true, Bool.and_false]

theorem optionName_injective {key key' : String} (h : optionName key = optionName key') :
    key = key' := by
  have hlist := congrArg String.toList h
  unfold optionName at hlist
  rw [String.toList_ofList, String.toList_ofList] at hlist
  exact String.toList_inj.1 (List.append_cancel_left hlist)

end Attributes

open Attributes

/-! ### Attributes of a table -/

namespace AotTable

variable {t : AotTable} {σ : Signature}

/-- An attribute that a table is written as. -/
inductive Writes (t : AotTable) : String × String → Prop where
  /-- The request. -/
  | request : t.Writes (requestName, "1")
  /-- An executable. -/
  | executable (σ : Signature) (bytes : Bytes) (h : t.executables.get? σ = some bytes) :
    t.Writes (executableName σ, .ofList (Text.Base64.encode bytes))
  /-- A function. -/
  | function (σ : Signature) (text : String) (h : t.functions.get? σ = some text) :
    t.Writes (functionName σ, text)

/-- **The attributes of a table** are the ones that it is written as. -/
theorem mem_toAttributes {e : String × String} : e ∈ t.toAttributes.toList ↔ t.Writes e := by
  refine (SortedMap.mem_foldl_insert_toList t.functions _ (fun text => text)
    fun _ _ => functionName_injective).trans ?_
  rw [SortedMap.mem_foldl_insert_toList t.executables _
    (fun bytes => String.ofList (Text.Base64.encode bytes)) fun _ _ => executableName_injective]
  constructor
  · rintro (⟨σ, text, htext, rfl⟩ | ⟨⟨σ, bytes, hbytes, rfl⟩ | ⟨hrequest, -⟩, -⟩)
    · exact .function σ text htext
    · exact .executable σ bytes hbytes
    · obtain rfl := List.mem_singleton.1 hrequest
      exact .request
  · rintro (_ | ⟨σ, bytes, hbytes⟩ | ⟨σ, text, htext⟩)
    · exact .inr ⟨.inr ⟨List.mem_singleton_self _,
        fun σ _ _ => (requestName_ne_executableName σ).symm⟩,
        fun σ _ _ => (requestName_ne_functionName σ).symm⟩
    · exact .inr ⟨.inl ⟨σ, bytes, hbytes, rfl⟩,
        fun τ _ _ => (executableName_ne_functionName σ τ).symm⟩
    · exact .inl ⟨σ, text, htext, rfl⟩

/-- A text of an executable is there exactly if the table has the executable. -/
theorem writes_executable_iff {bytes : Bytes} :
    t.Writes (executableName σ, .ofList (Text.Base64.encode bytes)) ↔
      t.executables.get? σ = some bytes := by
  constructor
  · generalize hname : executableName σ = name
    generalize htext : String.ofList (Text.Base64.encode bytes) = text
    rintro (_ | ⟨τ, bytes', h⟩ | ⟨τ, text, h⟩)
    · exact absurd hname.symm (requestName_ne_executableName σ)
    · obtain rfl := executableName_injective hname
      rw [h, Text.Base64.encode_injective (String.ofList_inj.1 htext)]
    · exact absurd hname (executableName_ne_functionName σ τ)
  · exact .executable σ bytes

/-- So is a text of a function. -/
theorem writes_function_iff {text : String} :
    t.Writes (functionName σ, text) ↔ t.functions.get? σ = some text := by
  constructor
  · generalize hname : functionName σ = name
    rintro (_ | ⟨τ, bytes, h⟩ | ⟨τ, text, h⟩)
    · exact absurd hname.symm (requestName_ne_functionName σ)
    · exact absurd hname.symm (executableName_ne_functionName τ σ)
    · obtain rfl := functionName_injective hname
      exact h
  · exact .function σ text

/-- **A table is determined** by the attributes that it is written as. -/
theorem ext_writes {s t : AotTable} (h : ∀ e, s.Writes e ↔ t.Writes e) : s = t := by
  obtain ⟨executables, functions⟩ := s
  obtain ⟨executables', functions'⟩ := t
  congr 1
  · refine SortedMap.ext_get? fun σ => Option.ext fun bytes => ?_
    exact writes_executable_iff.symm.trans ((h _).trans writes_executable_iff)
  · refine SortedMap.ext_get? fun σ => Option.ext fun text => ?_
    exact writes_function_iff.symm.trans ((h _).trans writes_function_iff)

end AotTable

/-- The attributes that options of the backend are written as. -/
def optionAttributes (options : SortedMap String String) : Attributes :=
  options.toList.foldl (fun attrs e => attrs.insert (optionName e.1) e.2) .empty

theorem mem_optionAttributes {options : SortedMap String String} {e : String × String} :
    e ∈ (optionAttributes options).toList ↔
      ∃ key text, options.get? key = some text ∧ e = (optionName key, text) := by
  refine (SortedMap.mem_foldl_insert_toList options .empty (fun text => text)
    fun _ _ => optionName_injective).trans ?_
  constructor
  · rintro (h | ⟨h, -⟩)
    · exact h
    · exact absurd h List.not_mem_nil
  · exact .inl

/-! ### One attribute -/

namespace UnitAttributes

variable {r r' : Reading} {name text : String} {e : String × String}

/-- **The attributes that can be read**, and what each of them adds to what has been read. -/
inductive Read (r : Reading) : String × String → Reading → Prop where
  /-- An attribute of another name adds nothing. -/
  | foreign (name text : String) (h : mark.isPrefixOf name.toList = false) : Read r (name, text) r
  /-- An executable. -/
  | executable (σ : Signature) (bytes : Bytes) :
    Read r (executableName σ, .ofList (Text.Base64.encode bytes))
      { r with table := r.table.insertExecutable σ bytes }
  /-- A function. -/
  | function (σ : Signature) (text : String) :
    Read r (functionName σ, text)
      { r with table.functions := r.table.functions.insert σ text }
  /-- The request. -/
  | request (text : String) : Read r (requestName, text) { r with requested := text = "1" }
  /-- An option. -/
  | option (key text : String) (h : isOption (optionName key) = true) :
    Read r (optionName key, text) { r with options := r.options.insert key text }

/-- **Reading one attribute.** -/
theorem readAttribute_eq_ok_iff : readAttribute r e.1 e.2 = .ok r' ↔ Read r e r' := by
  obtain ⟨name, text⟩ := e
  constructor
  · intro h
    -- A name has one role, and the role says what the name is.
    have hnamed := named_roleOf name
    unfold readAttribute at h
    cases hrole : roleOf name with
    | foreign =>
      rw [hrole] at h hnamed
      cases h
      exact .foreign name text hnamed
    | executable σ =>
      rw [hrole] at h hnamed
      obtain rfl : name = executableName σ := hnamed
      dsimp only at h
      split at h
      · rename_i bytes hbytes
        have htext : text = .ofList (Text.Base64.encode bytes) := by
          rw [Text.Base64.encode_of_decode? hbytes, String.ofList_toList]
        cases h
        rw [htext]
        exact .executable σ bytes
      · cases h
    | function σ =>
      rw [hrole] at h hnamed
      obtain rfl : name = functionName σ := hnamed
      cases h
      exact .function σ text
    | request =>
      rw [hrole] at h hnamed
      obtain rfl : name = requestName := hnamed
      cases h
      exact .request text
    | reserved =>
      rw [hrole] at h
      cases h
    | option key =>
      rw [hrole] at h hnamed
      obtain ⟨hoption, rfl⟩ := hnamed
      cases h
      exact .option key text hoption
  · unfold readAttribute
    rintro (⟨_, _, h⟩ | ⟨σ, bytes⟩ | ⟨σ, _⟩ | _ | ⟨key, _, h⟩)
    · rw [roleOf_of_foreign h]
    · rw [roleOf_executableName]
      dsimp only
      rw [String.toList_ofList, Text.Base64.decode?_encode]
    · rw [roleOf_functionName]
    · rw [roleOf_requestName]
    · rw [roleOf_of_isOption h]

/-! ### All of them -/

/-- **What has been read** off the attributes that were walked over. -/
structure Reads (done : List (String × String)) (r : Reading) : Prop where
  /-- An executable has been read exactly if its text was there. -/
  executables : ∀ σ bytes, r.table.executables.get? σ = some bytes ↔
    (executableName σ, String.ofList (Text.Base64.encode bytes)) ∈ done
  /-- So has a function. -/
  functions : ∀ σ text, r.table.functions.get? σ = some text ↔ (functionName σ, text) ∈ done
  /-- So has the request. -/
  request : r.requested = true ↔ (requestName, "1") ∈ done
  /-- So has an option, unless its name belongs to a table. -/
  options : ∀ key text, r.options.get? key = some text ↔
    (optionName key, text) ∈ done.filter fun e => isOption e.1
  /-- All of them could be read. -/
  readable : ∀ e ∈ done, ∃ r r', Read r e r'

theorem reads_nil : Reads [] ⟨.empty, false, .empty⟩ where
  executables _ _ := by simp [AotTable.empty]
  functions _ _ := by simp [AotTable.empty]
  request := by simp
  options _ _ := by simp
  readable _ h := absurd h List.not_mem_nil

variable {done rest : List (String × String)}

/-- An attribute of another name makes no difference to a name. -/
theorem mem_append_of_ne {other : String} (h : other ≠ name) {value : String} :
    (other, value) ∈ done ++ [(name, text)] ↔ (other, value) ∈ done := by
  simp [h]

/-- **An entry that is set** is the one that its attribute tells. -/
theorem get?_insert_iff_mem {α : Type} {m : SortedMap String α} {nameOf : String → String}
    (textOf : α → String) {k : String} {a : α} (hname : nameOf.Injective)
    (htext : textOf.Injective) (hnew : ∀ d ∈ done, d.1 ≠ nameOf k)
    (h : ∀ j b, m.get? j = some b ↔ (nameOf j, textOf b) ∈ done) (j : String) (b : α) :
    (m.insert k a).get? j = some b ↔ (nameOf j, textOf b) ∈ done ++ [(nameOf k, textOf a)] := by
  rw [SortedMap.get?_insert]
  split
  · rename_i hj
    subst hj
    have hnot : (nameOf j, textOf b) ∉ done := fun hmem => hnew _ hmem rfl
    simp only [Option.some.injEq, List.mem_append, hnot, List.mem_singleton, Prod.mk.injEq,
      true_and, false_or, htext.eq_iff]
    exact eq_comm
  · rename_i hj
    rw [mem_append_of_ne (hname.ne hj)]
    exact h j b

/-- **One more attribute.** -/
theorem Reads.read (h : Reads done r) (hnew : ∀ d ∈ done, d.1 ≠ e.1) (hread : Read r e r') :
    Reads (done ++ [e]) r' := by
  have hreadable : ∀ d ∈ done ++ [e], ∃ r r', Read r d r' := by
    intro d hd
    rcases List.mem_append.1 hd with hd | hd
    · exact h.readable d hd
    · obtain rfl := List.mem_singleton.1 hd
      exact ⟨r, r', hread⟩
  have hoptions : isOption e.1 = false → ∀ key text, r.options.get? key = some text ↔
      (optionName key, text) ∈ (done ++ [e]).filter fun e => isOption e.1 := by
    intro hnot key text
    rw [List.filter_append, List.filter_singleton, hnot]
    simpa using h.options key text
  -- A name of one kind is no name of another, so one table changes and the others do not.
  cases hread with
  | foreign name text hforeign =>
    have hne : ∀ {other}, isAot other = true → other ≠ name := by
      rintro other haot rfl
      exact Bool.false_ne_true (hforeign.symm.trans (mark_of_isAot haot))
    refine ⟨fun σ bytes => ?_, fun σ text => ?_, ?_, hoptions ?_, hreadable⟩
    · rw [mem_append_of_ne (hne (isAot_executableName σ))]
      exact h.executables σ bytes
    · rw [mem_append_of_ne (hne (isAot_functionName σ))]
      exact h.functions σ text
    · rw [mem_append_of_ne (hne isAot_requestName)]
      exact h.request
    · rw [isOption, hforeign, Bool.false_and]
  | executable τ bytes =>
    refine ⟨?_, fun σ text => ?_, ?_, hoptions (isOption_of_isAot (isAot_executableName τ)),
      hreadable⟩
    · exact get?_insert_iff_mem (fun bytes => String.ofList (Text.Base64.encode bytes))
        (fun _ _ => executableName_injective)
        (fun _ _ heq => Text.Base64.encode_injective (String.ofList_inj.1 heq)) hnew h.executables
    · rw [mem_append_of_ne (executableName_ne_functionName τ σ).symm]
      exact h.functions σ text
    · rw [mem_append_of_ne (requestName_ne_executableName τ)]
      exact h.request
  | function τ text =>
    refine ⟨fun σ bytes => ?_, ?_, ?_, hoptions (isOption_of_isAot (isAot_functionName τ)),
      hreadable⟩
    · rw [mem_append_of_ne (executableName_ne_functionName σ τ)]
      exact h.executables σ bytes
    · exact get?_insert_iff_mem id (fun _ _ => functionName_injective)
        Function.injective_id hnew h.functions
    · rw [mem_append_of_ne (requestName_ne_functionName τ)]
      exact h.request
  | request text =>
    refine ⟨fun σ bytes => ?_, fun σ text => ?_, ?_,
      hoptions (isOption_of_isAot isAot_requestName), hreadable⟩
    · rw [mem_append_of_ne (requestName_ne_executableName σ).symm]
      exact h.executables σ bytes
    · rw [mem_append_of_ne (requestName_ne_functionName σ).symm]
      exact h.functions σ text
    · have hnot : (requestName, "1") ∉ done := fun hmem => hnew _ hmem rfl
      simp [hnot, eq_comm]
  | option key text hoption =>
    have hne : ∀ {other}, isAot other = true → other ≠ optionName key := by
      rintro other haot rfl
      exact Bool.false_ne_true ((isOption_of_isAot haot).symm.trans hoption)
    refine ⟨fun σ bytes => ?_, fun σ text => ?_, ?_, ?_, hreadable⟩
    · rw [mem_append_of_ne (hne (isAot_executableName σ))]
      exact h.executables σ bytes
    · rw [mem_append_of_ne (hne (isAot_functionName σ))]
      exact h.functions σ text
    · rw [mem_append_of_ne (hne isAot_requestName)]
      exact h.request
    · rw [List.filter_append, List.filter_singleton, hoption]
      exact get?_insert_iff_mem id (fun _ _ => optionName_injective)
        Function.injective_id (fun d hd => hnew d (List.mem_of_mem_filter hd)) h.options

/-- **The attributes one after the other**, each of its own name. -/
theorem Reads.readAll (h : Reads done r)
    (hnames : (done ++ rest).Pairwise fun d e => d.1 ≠ e.1)
    (hread : UnitAttributes.readAll r rest = .ok r') : Reads (done ++ rest) r' := by
  induction rest generalizing done r with
  | nil =>
    cases hread
    rwa [List.append_nil]
  | cons e rest ih =>
    obtain ⟨r₁, hfirst, hrest⟩ := except_bind_eq_ok.1 hread
    have hnew : ∀ d ∈ done, d.1 ≠ e.1 := fun d hd =>
      (List.pairwise_append.1 hnames).2.2 d hd e List.mem_cons_self
    rw [← List.singleton_append, ← List.append_assoc] at hnames ⊢
    exact ih (h.read hnew (readAttribute_eq_ok_iff.1 hfirst)) hnames hrest

/-- Attributes that can be read one by one can all be read. -/
theorem exists_readAll (h : ∀ e ∈ rest, ∀ r, ∃ r', Read r e r') (r : Reading) :
    ∃ r', UnitAttributes.readAll r rest = .ok r' := by
  induction rest generalizing r with
  | nil => exact ⟨r, rfl⟩
  | cons e rest ih =>
    obtain ⟨r₁, hread⟩ := h e List.mem_cons_self r
    obtain ⟨r', hrest⟩ := ih (fun e he => h e (List.mem_cons_of_mem _ he)) r₁
    exact ⟨r', except_bind_eq_ok.2 ⟨r₁, readAttribute_eq_ok_iff.2 hread, hrest⟩⟩

/-! ### Tables and attributes -/

variable {attrs : Attributes} {t : AotTable} {options : SortedMap String String}

/-- Attributes that are read say what they say. -/
theorem reads_of_readAll (h : readAll ⟨.empty, false, .empty⟩ attrs.toList = .ok r) :
    Reads attrs.toList r := by
  refine Reads.readAll reads_nil (attrs.sorted.imp fun {d e} hlt heq => ?_) h
  simp [heq] at hlt

/-- Attributes are read one after the other, and a table must have been asked for. -/
theorem ofAttributes_eq_ok_iff_readAll {unit : String} {u : UnitAttributes} :
    ofAttributes unit attrs = .ok u ↔
      ∃ r, readAll ⟨.empty, false, .empty⟩ attrs.toList = .ok r ∧
        (r.requested = false → r.table.isEmpty = true) ∧
        u = ⟨if r.requested then some r.table else none, r.options⟩ := by
  rw [ofAttributes, except_bind_eq_ok]
  refine exists_congr fun r => and_congr_right fun _ => ?_
  cases r.requested <;> cases r.table.isEmpty <;>
    simp [bind, Except.bind, pure, Except.pure, eq_comm]

/-- With a table the request is among them. -/
theorem ofAttributes_eq_ok_some_iff (unit : String) :
    ofAttributes unit attrs = .ok ⟨some t, options⟩ ↔
      readAll ⟨.empty, false, .empty⟩ attrs.toList = .ok ⟨t, true, options⟩ := by
  rw [ofAttributes_eq_ok_iff_readAll]
  constructor
  · rintro ⟨⟨table, requested, others⟩, hread, -, h⟩
    cases requested with
    | true =>
      cases h
      exact hread
    | false => cases h
  · exact fun hread => ⟨_, hread, nofun, rfl⟩

/-- **The attributes of a table that was read** are those that belong to tables. -/
theorem Reads.writes_iff (h : Reads attrs.toList r) (hrequested : r.requested = true) :
    r.table.Writes e ↔ e ∈ attrs.toList ∧ isAot e.1 = true := by
  constructor
  · rintro (_ | ⟨σ, bytes, hbytes⟩ | ⟨σ, text, htext⟩)
    · exact ⟨h.request.1 hrequested, isAot_requestName⟩
    · exact ⟨(h.executables σ bytes).1 hbytes, isAot_executableName σ⟩
    · exact ⟨(h.functions σ text).1 htext, isAot_functionName σ⟩
  · rintro ⟨he, haot⟩
    obtain ⟨r₁, r₂, hread⟩ := h.readable e he
    cases hread with
    | foreign name text hforeign =>
      exact absurd (hforeign.symm.trans (mark_of_isAot haot)) Bool.false_ne_true
    | executable σ bytes => exact .executable σ bytes ((h.executables σ bytes).2 he)
    | function σ text => exact .function σ text ((h.functions σ text).2 he)
    | request text =>
      -- The request is there once, and what was read says that it is set.
      have hone := SortedMap.get?_eq_some_iff.2 (h.request.1 hrequested)
      obtain rfl : text = "1" := Option.some.inj ((SortedMap.get?_eq_some_iff.2 he).symm.trans hone)
      exact .request
    | option key text hoption =>
      exact absurd ((isOption_of_isAot haot).symm.trans hoption) Bool.false_ne_true

/-- **The options that were read** are the other attributes that mean something. -/
theorem Reads.optionAttributes (h : Reads attrs.toList r) :
    optionAttributes r.options = attrs.filter fun name _ => isOption name := by
  refine SortedMap.ext_toList fun e => ?_
  rw [mem_optionAttributes, SortedMap.mem_filter]
  constructor
  · rintro ⟨key, text, hkey, rfl⟩
    exact List.mem_filter.1 ((h.options key text).1 hkey)
  · rintro ⟨he, hoption⟩
    obtain ⟨r₁, r₂, hread⟩ := h.readable e he
    cases hread with
    | option key text _ =>
      exact ⟨key, text, (h.options key text).2 (List.mem_filter.2 ⟨he, hoption⟩), rfl⟩
    | foreign name text hforeign => simp [isOption, hforeign] at hoption
    | executable σ bytes => simp [isOption] at hoption
    | function σ text => simp [isOption] at hoption
    | request text => simp [isOption] at hoption

theorem optionAttributes_injective {options options' : SortedMap String String}
    (h : optionAttributes options = optionAttributes options') : options = options' := by
  have hmem : ∀ {options : SortedMap String String} {key text},
      options.get? key = some text ↔
        (optionName key, text) ∈ (optionAttributes options).toList := by
    intro options key text
    rw [mem_optionAttributes]
    constructor
    · exact fun h => ⟨key, text, h, rfl⟩
    · rintro ⟨key', text', h, heq⟩
      obtain ⟨hkey, rfl⟩ := Prod.mk.injEq .. ▸ heq
      exact optionName_injective hkey ▸ h
  refine SortedMap.ext_get? fun key => Option.ext fun text => ?_
  rw [hmem, hmem, h]

/-- **Attributes with a table** are the ones that the table is written as, the ones that the options
are written as, and others that mean nothing. -/
theorem ofAttributes_eq_ok_iff (unit : String) :
    ofAttributes unit attrs = .ok ⟨some t, options⟩ ↔
      t.toAttributes = attrs.filter (fun name _ => isAot name) ∧
        optionAttributes options = attrs.filter fun name _ => isOption name := by
  have hwrites : ∀ {t : AotTable}, t.toAttributes = attrs.filter (fun name _ => isAot name) ↔
      ∀ e, t.Writes e ↔ e ∈ attrs.toList ∧ isAot e.1 = true := by
    intro t
    constructor
    · intro h e
      rw [← AotTable.mem_toAttributes, h, SortedMap.mem_filter]
    · intro h
      refine SortedMap.ext_toList fun e => ?_
      rw [AotTable.mem_toAttributes, h, SortedMap.mem_filter]
  rw [ofAttributes_eq_ok_some_iff, hwrites]
  constructor
  · intro h
    have hreads := reads_of_readAll h
    exact ⟨fun e => hreads.writes_iff rfl, hreads.optionAttributes⟩
  · rintro ⟨htable, hoptions⟩
    -- Every attribute can be read: it belongs to the table, is an option, or is foreign.
    obtain ⟨r, hread⟩ : ∃ r, readAll ⟨.empty, false, .empty⟩ attrs.toList = .ok r := by
      refine exists_readAll (fun e he r => ?_) _
      by_cases haot : isAot e.1 = true
      · rcases (htable e).2 ⟨he, haot⟩ with _ | ⟨σ, bytes, _⟩ | ⟨σ, text, _⟩
        · exact ⟨_, .request "1"⟩
        · exact ⟨_, .executable σ bytes⟩
        · exact ⟨_, .function σ text⟩
      by_cases hoption : isOption e.1 = true
      · have hmem : e ∈ (attrs.filter fun name _ => isOption name).toList :=
          SortedMap.mem_filter.2 ⟨he, hoption⟩
        obtain ⟨key, text, -, rfl⟩ := mem_optionAttributes.1 (hoptions ▸ hmem)
        exact ⟨_, .option key text hoption⟩
      · have hforeign : mark.isPrefixOf e.1.toList = false := by
          refine Bool.eq_false_iff.2 fun hmark => hoption ?_
          rw [isOption, hmark, Bool.eq_false_iff.2 haot]
          rfl
        exact ⟨r, .foreign e.1 e.2 hforeign⟩
    have hreads := reads_of_readAll hread
    -- What has been read and what is given write the same attributes, so they are the same.
    have hrequested : r.requested = true := hreads.request.2 ((htable _).1 .request).1
    obtain ⟨table, requested, others⟩ := r
    obtain rfl : requested = true := hrequested
    obtain rfl : table = t :=
      AotTable.ext_writes fun e => (hreads.writes_iff rfl).trans (htable e).symm
    obtain rfl : others = options :=
      optionAttributes_injective (hreads.optionAttributes.trans hoptions.symm)
    exact hread

/-- **A table is read back from the attributes that it is written as.** -/
theorem ofAttributes_toAttributes (unit : String) (t : AotTable) :
    ofAttributes unit t.toAttributes = .ok ⟨some t, .empty⟩ := by
  have haot : ∀ {e}, e ∈ t.toAttributes.toList → isAot e.1 = true := by
    intro e he
    rcases AotTable.mem_toAttributes.1 he with _ | ⟨σ, bytes, _⟩ | ⟨σ, text, _⟩
    · exact isAot_requestName
    · exact isAot_executableName σ
    · exact isAot_functionName σ
  refine (ofAttributes_eq_ok_iff unit).2 ⟨?_, ?_⟩
  · refine SortedMap.ext_toList fun e => ?_
    rw [SortedMap.mem_filter]
    exact ⟨fun he => ⟨he, haot he⟩, And.left⟩
  · refine SortedMap.ext_toList fun e => ?_
    rw [SortedMap.mem_filter]
    constructor
    · exact fun he => absurd he List.not_mem_nil
    · rintro ⟨he, hoption⟩
      exact absurd ((isOption_of_isAot (haot he)).symm.trans hoption) Bool.false_ne_true

/-- **Tables and attributes are inverse encodings.** Every table is read back, with no options, from
the attributes that it is written as; attributes are read as a table and options exactly if those
that belong to tables are what the table is written as, and the others that mean something are
what the options are written as; and a text in base 64 is read as the one byte string whose text it
is. -/
theorem attributes_inverse (unit : String) :
    (∀ t : AotTable, ofAttributes unit t.toAttributes = .ok ⟨some t, .empty⟩) ∧
      (∀ (attrs : Attributes) (t : AotTable) (options : SortedMap String String),
        ofAttributes unit attrs = .ok ⟨some t, options⟩ ↔
          t.toAttributes = attrs.filter (fun name _ => isAot name) ∧
            optionAttributes options = attrs.filter fun name _ => isOption name) ∧
      ∀ text bytes, Text.Base64.decode? text = some bytes ↔ text = Text.Base64.encode bytes :=
  ⟨ofAttributes_toAttributes unit, fun _ _ _ => ofAttributes_eq_ok_iff unit,
    fun _ _ => Text.Base64.decode?_eq_some_iff⟩

end UnitAttributes

end TensorJit
