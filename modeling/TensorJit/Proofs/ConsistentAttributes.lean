import TensorJit.Graph.Samples
import TensorJit.Proofs.AotTable
import TensorJit.Proofs.Process

/-!
# Which attributes are accepted

Names are told apart by how they begin, and one mark may be the beginning of another: an executable
belongs to a table, and what belongs to a table begins as everything else does that means something.
So an attribute can be read **if it is reserved for nothing else, and in base 64 if it is an
executable** (`Attributes.Readable`), which says nothing of the order in which the marks are tried.

A table without the request for it is found out only after all attributes have been read, since the
request comes after the executables and functions in the order of names. Attributes are accepted if
and only if they are consistent (`Attributes.Consistent`): each can be read, and if there is an
executable or a function then the request is there as well. Attributes without the mark are never
looked at (`UnitAttributes.ofAttributes_congr`).
-/

namespace TensorJit

/-! ### Attributes that contradict nothing -/

namespace Attributes

variable {name value : String} {attrs : Attributes}

/-- A name begins with a mark if it is made of the mark and some text. -/
theorem prefix_iff {m : List Char} :
    m <+: name.toList ↔ ∃ text : String, name = .ofList (m ++ text.toList) := by
  constructor
  · rintro ⟨rest, hrest⟩
    exact ⟨.ofList rest, by rw [String.toList_ofList, hrest, String.ofList_toList]⟩
  · rintro ⟨text, rfl⟩
    rw [String.toList_ofList]
    exact List.prefix_append _ _

theorem isAot_iff : isAot name = true ↔ aotMark <+: name.toList := List.isPrefixOf_iff_prefix

/-- Executables belong to tables. -/
theorem aotMark_of_executableMark (h : executableMark <+: name.toList) :
    aotMark <+: name.toList := (List.prefix_append aotMark "exec_".toList).trans h

/-- An attribute that can be read, as far as its name and its value go. -/
structure Readable (name value : String) : Prop where
  /-- A name that belongs to a table is the request, or that of an executable or a function. -/
  known : aotMark <+: name.toList →
    name = requestName ∨ executableMark <+: name.toList ∨ functionMark <+: name.toList
  /-- An executable is the text of some bytes. -/
  base64 : executableMark <+: name.toList → ∃ bytes, value.toList = Text.Base64.encode bytes

/-- Attributes that do not contradict each other. -/
structure Consistent (attrs : Attributes) : Prop where
  /-- Each of them can be read. -/
  readable : ∀ name value, attrs.get? name = some value → Readable name value
  /-- With an executable or a function there is the request. -/
  requested : ∀ name value, attrs.get? name = some value →
    executableMark <+: name.toList ∨ functionMark <+: name.toList →
      attrs.get? requestName = some "1"

end Attributes

namespace UnitAttributes

open Attributes

variable {r r' : Reading} {name value : String} {attrs attrs' : Attributes}

/-! ### One attribute -/

theorem Read.readable (h : Read r (name, value) r') : Readable name value := by
  cases h with
  | foreign _ _ hforeign =>
    have hnot : ¬ aotMark <+: name.toList := fun haot =>
      Bool.false_ne_true (hforeign.symm.trans (mark_of_isAot (isAot_iff.2 haot)))
    exact ⟨fun haot => absurd haot hnot, fun hexec => absurd (aotMark_of_executableMark hexec) hnot⟩
  | executable σ bytes =>
    exact ⟨fun _ => .inr (.inl (prefix_iff.2 ⟨σ, rfl⟩)), fun _ => ⟨bytes, String.toList_ofList⟩⟩
  | function σ _ =>
    refine ⟨fun _ => .inr (.inr (prefix_iff.2 ⟨σ, rfl⟩)), fun hexec => ?_⟩
    obtain ⟨τ, hτ⟩ := prefix_iff.1 hexec
    exact absurd hτ.symm (executableName_ne_functionName τ σ)
  | request _ =>
    refine ⟨fun _ => .inl rfl, fun hexec => ?_⟩
    obtain ⟨τ, hτ⟩ := prefix_iff.1 hexec
    exact absurd hτ (requestName_ne_executableName τ)
  | option key _ hoption =>
    have hnot : ¬ aotMark <+: (optionName key).toList := fun haot => by
      rw [isOption_of_isAot (isAot_iff.2 haot)] at hoption
      cases hoption
    exact ⟨fun haot => absurd haot hnot, fun hexec => absurd (aotMark_of_executableMark hexec) hnot⟩

/-- **One attribute is read** if and only if it can be. -/
theorem exists_read_iff : (∃ r', Read r (name, value) r') ↔ Readable name value := by
  refine ⟨fun ⟨r', h⟩ => h.readable, fun h => ?_⟩
  -- What does not belong to a table is an option or nothing, and either can be read.
  by_cases haot : isAot name = true
  · rcases h.known (isAot_iff.1 haot) with rfl | hexec | hfunction
    · exact ⟨_, .request value⟩
    · obtain ⟨bytes, hbytes⟩ := h.base64 hexec
      obtain ⟨σ, rfl⟩ := prefix_iff.1 hexec
      rw [← String.ofList_toList (s := value), hbytes]
      exact ⟨_, .executable σ bytes⟩
    · obtain ⟨σ, rfl⟩ := prefix_iff.1 hfunction
      exact ⟨_, .function σ value⟩
  · by_cases hmark : mark.isPrefixOf name.toList = true
    · have hoption : isOption name = true := by
        rw [isOption, hmark, Bool.eq_false_iff.2 haot]
        rfl
      obtain ⟨key, rfl⟩ := prefix_iff.1 (List.isPrefixOf_iff_prefix.1 hmark)
      exact ⟨_, .option key value hoption⟩
    · exact ⟨r, .foreign name value (Bool.eq_false_iff.2 hmark)⟩

/-! ### All of them -/

/-- The request has been read if it is there. -/
theorem Reads.requested_iff (h : Reads attrs.toList r) :
    r.requested = true ↔ attrs.get? requestName = some "1" :=
  h.request.trans SortedMap.get?_eq_some_iff.symm

/-- **The table is empty** if no attribute is an executable or a function. -/
theorem Reads.isEmpty_iff (h : Reads attrs.toList r) :
    r.table.isEmpty = true ↔ ∀ name value, attrs.get? name = some value →
      ¬ (executableMark <+: name.toList ∨ functionMark <+: name.toList) := by
  rw [AotTable.isEmpty, Bool.and_eq_true, SortedMap.isEmpty_iff, SortedMap.isEmpty_iff]
  constructor
  · rintro ⟨hexecutables, hfunctions⟩ name value hvalue (hexec | hfunction)
    · have hmem := SortedMap.get?_eq_some_iff.1 hvalue
      obtain ⟨_, _, hread⟩ := h.readable _ hmem
      obtain ⟨bytes, hbytes⟩ := hread.readable.base64 hexec
      obtain ⟨σ, rfl⟩ := prefix_iff.1 hexec
      rw [← String.ofList_toList (s := value), hbytes] at hmem
      have hfound := (h.executables σ bytes).2 hmem
      rw [hexecutables] at hfound
      cases hfound
    · obtain ⟨σ, rfl⟩ := prefix_iff.1 hfunction
      have hfound := (h.functions σ value).2 (SortedMap.get?_eq_some_iff.1 hvalue)
      rw [hfunctions] at hfound
      cases hfound
  · intro hnone
    refine ⟨fun σ => Option.eq_none_iff_forall_ne_some.2 fun bytes hbytes => ?_,
      fun σ => Option.eq_none_iff_forall_ne_some.2 fun text htext => ?_⟩
    · have hmem := (h.executables σ bytes).1 hbytes
      exact hnone _ _ (SortedMap.get?_eq_some_iff.2 hmem) (.inl (prefix_iff.2 ⟨σ, rfl⟩))
    · have hmem := (h.functions σ text).1 htext
      exact hnone _ _ (SortedMap.get?_eq_some_iff.2 hmem) (.inr (prefix_iff.2 ⟨σ, rfl⟩))

/-- **Consistent attributes are accepted**, and no others. -/
theorem exists_ofAttributes_iff (unit : String) :
    (∃ u, ofAttributes unit attrs = .ok u) ↔ attrs.Consistent := by
  constructor
  · rintro ⟨u, hu⟩
    obtain ⟨r, hread, hempty, -⟩ := ofAttributes_eq_ok_iff_readAll.1 hu
    have hreads := reads_of_readAll hread
    refine ⟨fun name value hvalue => ?_, fun name value hvalue hentry => ?_⟩
    · obtain ⟨_, _, h⟩ := hreads.readable _ (SortedMap.get?_eq_some_iff.1 hvalue)
      exact h.readable
    · rw [← hreads.requested_iff]
      -- Without the request the table has been found empty, but here is an entry of it.
      by_contra hnot
      exact hreads.isEmpty_iff.1 (hempty (Bool.eq_false_iff.2 hnot)) name value hvalue hentry
  · intro h
    obtain ⟨r, hread⟩ : ∃ r, readAll ⟨.empty, false, .empty⟩ attrs.toList = .ok r :=
      exists_readAll (fun e he r => exists_read_iff.2
        (h.readable e.1 e.2 (SortedMap.get?_eq_some_iff.2 he))) _
    have hreads := reads_of_readAll hread
    refine ⟨_, ofAttributes_eq_ok_iff_readAll.2 ⟨r, hread, fun hnot => ?_, rfl⟩⟩
    refine hreads.isEmpty_iff.2 fun name value hvalue hentry => ?_
    rw [hreads.requested_iff.2 (h.requested name value hvalue hentry)] at hnot
    cases hnot

/-- **There is a table** if it is asked for. -/
theorem aot_isSome_iff {unit : String} {u : UnitAttributes} (h : ofAttributes unit attrs = .ok u) :
    u.aot.isSome = true ↔ attrs.get? requestName = some "1" := by
  obtain ⟨r, hread, -, rfl⟩ := ofAttributes_eq_ok_iff_readAll.1 h
  rw [← (reads_of_readAll hread).requested_iff]
  cases r.requested with
  | true => simp
  | false => simp

/-! ### Attributes that mean nothing -/

/-- What does not begin with the mark is passed over. -/
theorem readAll_filter (l : List (String × String)) :
    readAll r (l.filter fun e => mark.isPrefixOf e.1.toList) = readAll r l := by
  induction l generalizing r with
  | nil => rfl
  | cons e rest ih =>
    cases hmark : mark.isPrefixOf e.1.toList with
    | true =>
      simp only [List.filter_cons, hmark, if_true]
      rw [readAll, readAll]
      exact congrArg _ (funext fun r => ih)
    | false =>
      simp only [List.filter_cons, hmark, Bool.false_eq_true, if_false]
      rw [ih, readAll, readAttribute, roleOf_of_foreign hmark]
      rfl

/-- **Attributes that agree where they mean something say the same**, also if they are refused. -/
theorem ofAttributes_congr (h : ∀ name, mark <+: name.toList → attrs'.get? name = attrs.get? name)
    (unit : String) : ofAttributes unit attrs' = ofAttributes unit attrs := by
  have hfilter : attrs'.filter (fun name _ => mark.isPrefixOf name.toList) =
      attrs.filter fun name _ => mark.isPrefixOf name.toList := by
    refine SortedMap.ext_toList fun e => ?_
    rw [SortedMap.mem_filter, SortedMap.mem_filter]
    refine and_congr_left fun hmark => ?_
    rw [← SortedMap.get?_eq_some_iff, ← SortedMap.get?_eq_some_iff,
      h _ (List.isPrefixOf_iff_prefix.1 hmark)]
  have hlist := congrArg SortedMap.toList hfilter
  rw [ofAttributes, ofAttributes, ← readAll_filter attrs'.toList, ← readAll_filter attrs.toList]
  exact congrArg (fun l => readAll _ l >>= _) hlist

/-! ### Executors -/

/-- **Attributes that are refused are a matter of configuration**: no executor is built. -/
theorem build_of_refused {request : BuildRequest} {p : Platform} {fault : AttributeFault}
    (h : ofAttributes request.unit.name request.unit.attributes = .error fault) :
    ∃ cause, Executor.build request p = .error (.configInvalid cause) p ∧
      ∀ c, request.chosenConfig = .ok c → cause = .attributes fault := by
  cases hconfig : request.chosenConfig with
  | error configFault =>
    have hsettings : request.settings = .error (.config configFault) := by
      rw [BuildRequest.settings, hconfig]
      rfl
    refine ⟨.config configFault, ?_, nofun⟩
    rw [Executor.build, hsettings]
    rfl
  | ok c =>
    have hsettings : request.settings = .error (.attributes fault) := by
      rw [BuildRequest.settings, hconfig, h]
      rfl
    refine ⟨_, ?_, fun _ _ => rfl⟩
    rw [Executor.build, hsettings]
    rfl

/-- **Exactly the consistent attributes are accepted**, under whatever name of a unit. If they are,
there is a table if and only if it is asked for; if they are not, building an executor from them
ends with an invalid configuration, for this reason unless the configuration that was asked for is
invalid itself; and attributes that do not begin with the mark make no difference to anything. -/
theorem accepted_exactly (attrs : Attributes) :
    (∀ unit, (∃ u, ofAttributes unit attrs = .ok u) ↔ attrs.Consistent) ∧
    (∀ unit u, ofAttributes unit attrs = .ok u →
      (u.aot.isSome = true ↔ attrs.get? requestName = some "1")) ∧
    (∀ (request : BuildRequest) (p : Platform) (fault : AttributeFault),
      request.unit.attributes = attrs → ofAttributes request.unit.name attrs = .error fault →
        ∃ cause, Executor.build request p = .error (.configInvalid cause) p ∧
          ∀ c, request.chosenConfig = .ok c → cause = .attributes fault) ∧
    ∀ attrs' : Attributes, (∀ name, mark <+: name.toList → attrs'.get? name = attrs.get? name) →
      ∀ unit, ofAttributes unit attrs' = ofAttributes unit attrs := by
  refine ⟨exists_ofAttributes_iff, fun unit u h => aot_isSome_iff h, ?_,
    fun attrs' h unit => ofAttributes_congr h unit⟩
  rintro request p fault rfl h
  exact build_of_refused h

end UnitAttributes

/-- An executable, an option, and something in place of the request. -/
def Attributes.sampleEntry (request : String) : Attributes :=
  .ofList [("_encap_aot_exec_2,;/", "AQID"), ("_encap_aot_requested", request),
    ("_encap_ice_cores", "4")]

/-- A request for an executor with these attributes. -/
def BuildRequest.sampleEntry (request : String) : BuildRequest :=
  let plain := BuildRequest.plain Graph.sampleAdd "host" .recording .never
  { plain with unit := { plain.unit with attributes := .sampleEntry request } }

open UnitAttributes in
/-- With the request the executable is accepted, and one more attribute that does not begin with the
mark makes no difference; with anything else in its place the executor is not built. -/
theorem accepted_of_request :
    ((Attributes.sampleEntry "1").Consistent ∧
      ∃ u, ofAttributes "cluster_0" (.sampleEntry "1") = .ok u ∧ (u.aot.isSome = true ↔
        (Attributes.sampleEntry "1").get? Attributes.requestName = some "1")) ∧
    ofAttributes "cluster_0" ((Attributes.sampleEntry "1").insert "unrelated" "x") =
      ofAttributes "cluster_0" (.sampleEntry "1") ∧
    ¬ (Attributes.sampleEntry "yes").Consistent ∧
    ∃ cause, Executor.build (.sampleEntry "yes") Process.empty.platform =
      .error (.configInvalid cause) Process.empty.platform := by
  obtain ⟨hone, haot, -, hagree⟩ := accepted_exactly (.sampleEntry "1")
  obtain ⟨hother, -, hbuild, -⟩ := accepted_exactly (.sampleEntry "yes")
  have hok : (ofAttributes "cluster_0" (.sampleEntry "1")).toOption.isSome = true := by
    decide +kernel
  have hrefused : ofAttributes "cluster_0" (.sampleEntry "yes") =
      .error (.notRequested "cluster_0") := by decide +kernel
  obtain ⟨u, hu⟩ := Option.isSome_iff_exists.1 hok
  rw [toOption_eq_some] at hu
  refine ⟨⟨(hone _).1 ⟨u, hu⟩, u, hu, haot _ u hu⟩, hagree _ (fun name hmark => ?_) _,
    fun h => ?_, ?_⟩
  · rw [SortedMap.get?_insert, if_neg]
    rintro rfl
    exact absurd hmark (by decide)
  · obtain ⟨u, hu⟩ := (hother "cluster_0").2 h
    rw [hrefused] at hu
    cases hu
  · have hname : (BuildRequest.sampleEntry "yes").unit.name = "cluster_0" := by decide +kernel
    obtain ⟨cause, hcause, -⟩ := hbuild (.sampleEntry "yes") Process.empty.platform
      (.notRequested "cluster_0") rfl (by rw [hname, hrefused])
    exact ⟨cause, hcause⟩

end TensorJit
