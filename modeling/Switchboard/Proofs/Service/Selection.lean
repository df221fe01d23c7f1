/-
  Which operation a call selects.

  Where there is no choice, neither the query nor the payload matters.  Where the query has a name,
  the payload does not matter.  Otherwise nothing but the payload matters: `BodySelects` says what
  it gives, in terms of the members of an object (`operation_selection`).
-/
import Switchboard.Proofs.Todos.Conventions

namespace Switchboard

open Json

/-! ## Names -/

/-- The values of a parameter in the query of a call, in order. -/
def CallContext.queryParams (context : CallContext) (param : String) : List String :=
  (Http.Form.decode (context.uri.query.getD "")).under param

theorem CallContext.queryParam_eq (context : CallContext) (param : String) :
    context.queryParam param = (context.queryParams param).getLast? :=
  Named.last?_eq_getLast? param _

/-! ## Bodies -/

/-- What the body of a call selects under the name of a parameter: the last member of that name, if
    the body is an object with one that is a string. -/
structure BodySelects (param : String) (payload : Bytes) (result : Except CallError String) :
    Prop where
  unreadable : (¬∃ members, IsObject members payload) →
    ∃ reason, result = .error (.badRequest reason)
  missing : ∀ {members}, IsObject members payload → members.under param = [] →
    result = .error (.missingOperation param)
  refused : ∀ {members tree}, IsObject members payload →
    (members.under param).getLast? = some tree →
    (∀ name, tree ≠ .text name) → ∃ reason, result = .error (.badRequest reason)
  named : ∀ {members name}, IsObject members payload →
    (members.under param).getLast? = some (.text name) →
    result = .ok name

variable {param : String} {payload : Bytes}

theorem selectFromBody_of_not_object (h : ¬∃ members, IsObject members payload) :
    ∃ reason, selectFromBody param payload = .error (.badRequest reason) := by
  rw [selectFromBody]
  cases hdocument : document envelope payload with
  | error fault => exact ⟨_, rfl⟩
  | ok values =>
    obtain ⟨members, rest, written, blank, valued⟩ := document_envelope_iff.1 hdocument
    exact absurd ⟨members, .intro written blank valued⟩ h

section Object

variable {members : Named Tree} (h : IsObject members payload)

include h

theorem Json.IsObject.exists_values (param : String) :
    ∃ values : Named Value, document envelope payload = .ok values ∧
      (members.under param).getLast?.map Tree.value? = (values.last? param).map some := by
  obtain ⟨written, blank, valued⟩ := h
  refine ⟨_, document_envelope_iff.2 ⟨members, _, written, blank, valued⟩, ?_⟩
  rw [Named.last?_eq_getLast?]
  exact getLast?_of_itemsValue? (itemsValue?_under valued param)

theorem Json.IsObject.missing (hnone : members.under param = []) :
    selectFromBody param payload = .error (.missingOperation param) := by
  obtain ⟨values, hdocument, hlast⟩ := h.exists_values param
  rw [hnone] at hlast
  have hvalue : values.last? param = none := Option.map_eq_none_iff.1 hlast.symm
  rw [selectFromBody, hdocument]
  dsimp only
  rw [hvalue]

theorem Json.IsObject.named {name : String}
    (hlast : (members.under param).getLast? = some (.text name)) :
    selectFromBody param payload = .ok name := by
  obtain ⟨values, hdocument, hvalues⟩ := h.exists_values param
  rw [hlast] at hvalues
  obtain ⟨v, hv, hname⟩ := Option.map_eq_some_iff.1 hvalues.symm
  obtain rfl : v = .text name := Option.some.inj hname
  rw [selectFromBody, hdocument]
  dsimp only
  rw [hv]

theorem Json.IsObject.refused {tree : Tree} (hlast : (members.under param).getLast? = some tree)
    (htree : ∀ name, tree ≠ .text name) :
    ∃ reason, selectFromBody param payload = .error (.badRequest reason) := by
  obtain ⟨values, hdocument, hvalues⟩ := h.exists_values param
  rw [hlast] at hvalues
  obtain ⟨v, hv, hvalue⟩ := Option.map_eq_some_iff.1 hvalues.symm
  rw [selectFromBody, hdocument]
  dsimp only
  rw [hv]
  cases v with
  | text name => exact absurd (Tree.eq_text_of_value? hvalue.symm) (htree name)
  | null | boolean | number | list | object => exact ⟨_, rfl⟩

end Object

/-! ## Selection -/

/-- **Selection.**  A service with one operation selects it, whatever the call.  Where the
    operations have names, the last one in the query is selected, whatever the body.  Where there is
    none in the query, what is selected is the same for every call with this body, and it is what
    the body selects. -/
theorem operation_selection (context : CallContext) (payload : Bytes) :
    (∀ operation, selectOperation (.fixed operation) context payload = .ok operation) ∧
    ∀ param,
      (∀ name, (context.queryParams param).getLast? = some name →
        selectOperation (.named param) context payload = .ok name) ∧
      (context.queryParams param = [] →
        BodySelects param payload (selectOperation (.named param) context payload) ∧
        ∀ context' : CallContext, context'.queryParams param = [] →
          selectOperation (.named param) context' payload =
            selectOperation (.named param) context payload) := by
  refine ⟨fun operation => rfl, fun param => ⟨fun name hname => ?_, fun hnone => ?_⟩⟩
  · exact Service.selectOperation_of_query ((context.queryParam_eq param).trans hname) payload
  · have hbody : ∀ context : CallContext, context.queryParams param = [] →
        selectOperation (.named param) context payload = selectFromBody param payload :=
      fun context h => selectOperation_of_unnamed
        ((context.queryParam_eq param).trans (by rw [h]; rfl)) payload
    rw [hbody context hnone]
    exact ⟨⟨selectFromBody_of_not_object, fun h => h.missing, fun h => h.refused, fun h => h.named⟩,
      hbody⟩

/-- The last name in a query is selected over a body that breaks off; without it, the last member of
    the name, which is spelled with an escape. -/
theorem selection_of_last_name :
    let asked : CallContext :=
      { CallContext.inProcess "Todos" with uri :=
        ⟨none, none, "/", some "fn=a&%66n=get+%54odos&x"⟩ }
    let silent : CallContext := .inProcess "Todos"
    let payload : Bytes := Utf8.encode "\x7b\"fn\":null,\"\\u0066n\":\"a\"\x7d"
    let members : Named Tree := [("fn", .null), ("fn", .text "a")]
    (asked.queryParams "fn").getLast? = some "get Todos" ∧
      (∀ param, silent.queryParams param = []) ∧
      IsObject members payload ∧
      selectOperation (.named "fn") asked (Utf8.encode "\x7b") = .ok "get Todos" ∧
      selectOperation (.named "fn") silent payload = .ok "a" ∧
      selectOperation (.named "id") silent payload = .error (.missingOperation "id") := by
  intro asked silent payload members
  have last : (asked.queryParams "fn").getLast? = some "get Todos" := by cbv
  have hdecode : Http.Form.decode "" = [] := by cbv
  have none : ∀ param, silent.queryParams param = [] :=
    fun param => congrArg (Named.under param) hdecode
  let behind : Bytes := Utf8.encode ",\"\\u0066n\":\"a\"\x7d"
  have hfn : CharactersText "fn".toList (Utf8.encode "fn\":null" ++ behind)
      (Utf8.encode ":null" ++ behind) :=
    reads_textBody_iff.1 ⟨by decide, by cbv⟩
  have hkey : CharactersText "fn".toList (Utf8.encode "\\u0066n\":\"a\"\x7d")
      (Utf8.encode ":\"a\"\x7d") :=
    reads_textBody_iff.1 ⟨by decide, by cbv⟩
  have ha : CharactersText "a".toList (Utf8.encode "a\"\x7d") (Utf8.encode "\x7d") :=
    reads_textBody_iff.1 ⟨by decide, by cbv⟩
  have hnull : Written 126 .null (Utf8.encode "null" ++ behind) behind := LayerText.null (by decide)
  have htext : Written 126 (.text "a") (Utf8.encode "\"a\"\x7d") (Utf8.encode "\x7d") :=
    LayerText.text (by decide) ha
  have first : MemberText (Written 126) "fn" .null (Utf8.encode "\"fn\":null" ++ behind) behind :=
    ⟨by decide, hfn, by decide, hnull⟩
  have second : MemberText (Written 126) "fn" (.text "a") (Utf8.encode "\"\\u0066n\":\"a\"\x7d")
      (Utf8.encode "\x7d") := ⟨by decide, hkey, by decide, htext⟩
  have written : Written depthLimit (.object members) payload [] :=
    LayerText.object rfl (by decide) (.members first (.next (by decide) second (.done (by decide))))
  have object : IsObject members payload := .intro written rfl rfl
  have hbody := fun param => ((operation_selection silent payload).2 param).2 (none param)
  exact ⟨last, none, object, ((operation_selection asked _).2 "fn").1 _ last,
    (hbody "fn").1.named object rfl, (hbody "id").1.missing object rfl⟩

end Switchboard
