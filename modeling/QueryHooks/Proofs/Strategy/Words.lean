import QueryHooks.Proofs.Fragment
import QueryHooks.Proofs.Strategy.Imports
import QueryHooks.Proofs.Text.Name
import QueryHooks.Proofs.TypeScript.Word

namespace QueryHooks

open TypeScript
open Text (concat isName)

def constantWords (name : String) : List Word :=
  [⟨"export", " "⟩, ⟨"const", " "⟩, ⟨name, " = "⟩]

namespace Operation

def subscriptionWords (op : Operation) : List Word := [
  ⟨"export", " "⟩, ⟨"const", " "⟩, ⟨op.hookName, " = ("⟩, ⟨argsParam, if op.hasRequiredVariables then ": " else "?: "⟩,
  ⟨"SubscriptionHookOptions", "<"⟩, ⟨op.resultType, ", "⟩, ⟨op.variablesType, ">) => "⟩, ⟨"useSubscription", "<"⟩,
  ⟨op.resultType, ", "⟩, ⟨op.variablesType, ">("⟩, ⟨"gql", "("⟩, ⟨op.document, "), "⟩, ⟨argsParam, ");\n"⟩]

def documentWords (op : Operation) : List Word :=
  [⟨op.hookName ++ "." ++ "document", " = "⟩, ⟨op.document, ";\n"⟩]

theorem print_subscriptionHook (op : Operation) :
    op.subscriptionHook.print = concat (op.subscriptionWords.map Word.text) := by
  let optional := optionalMark (!op.hasRequiredVariables)
  let types := "<" ++ (op.resultType ++ ", " ++ op.variablesType) ++ ">"
  have h : op.subscriptionHook.print =
      "export const " ++ op.hookName ++ "" ++ " = " ++
        ("" ++ "" ++ ("(" ++ (argsParam ++ optional ++ (": " ++ ("SubscriptionHookOptions" ++ types))) ++ ")") ++ "" ++
          " => " ++
          ("useSubscription" ++ types ++
            "(" ++ ("gql" ++ "" ++ "(" ++ op.document ++ ")" ++ ", " ++ argsParam) ++ ")")) ++ ";\n" :=
    Stmt.print_exported_constant ..
  have ho : optional ++ ": " = if op.hasRequiredVariables then ": " else "?: " := by
    cases hr : op.hasRequiredVariables <;> simp [optional, optionalMark, hr]
  rw [h, subscriptionWords, ← ho]
  simp [types, Word.text, concat, ← String.toList_inj]

theorem print_accessor_document (op : Operation) :
    (op.accessor "document" op.documentRef).print = concat (op.documentWords.map Word.text) := by
  have h : (op.accessor "document" op.documentRef).print =
      "" ++ (op.hookName ++ "." ++ "document" ++ " = " ++ op.document) ++ ";\n" := rfl
  rw [h]
  simp [documentWords, Word.text, concat, ← String.toList_inj]

end Operation

namespace Native

def membersWords (op : Operation) : List Word := [
  ⟨"export", " "⟩, ⟨"const", " \x7b "⟩, ⟨"useQuery", ": "⟩, ⟨op.hookName, ", "⟩, ⟨"useQueryClient", ": "⟩,
  ⟨op.clientHookName, " \x7d = "⟩]

def makeWords (factory : Mapper) (op : Operation) (keyEnum : String) : List Word := [
  ⟨factory.callee, "<"⟩, ⟨op.resultType, ", "⟩, ⟨op.variablesType, ">("⟩, ⟨op.document, ", "⟩,
  ⟨keyEnum ++ "." ++ op.pascalName, ");\n"⟩]

def words (n : Native) (op : Operation) : Part → List Word
  | .query         =>
    (if n.combined.isSome then membersWords op else constantWords op.hookName) ++
      makeWords n.queryFactory op queryKeyEnum
  | .infiniteQuery => constantWords op.infiniteHookName ++ makeWords n.infinite op queryKeyEnum
  | .mutation      => constantWords op.hookName ++ makeWords n.mutation op mutationKeyEnum
  | .subscription  => op.subscriptionWords
  | .document      => op.documentWords
  | .getKey        => []
  | .fetcher       => []

theorem print_make (factory : Mapper) (op : Operation) (keyEnum : String) :
    (make factory op keyEnum).print ++ ";\n" = concat ((makeWords factory op keyEnum).map Word.text) := by
  have h : (make factory op keyEnum).print = factory.callee ++
      ("<" ++ (op.resultType ++ ", " ++ op.variablesType) ++ ">") ++ "(" ++
      (op.document ++ ", " ++ (keyEnum ++ "." ++ op.pascalName)) ++ ")" := rfl
  rw [h]
  simp [makeWords, Word.text, concat, ← String.toList_inj]

theorem print_exported_make (binding : Binding) (factory : Mapper) (op : Operation) (keyEnum : String)
    (hb : "export const " ++ binding.print ++ " = " = concat (ws.map Word.text)) :
    (Stmt.exported (.constant binding none (make factory op keyEnum))).print =
      concat ((ws ++ makeWords factory op keyEnum).map Word.text) := by
  rw [Stmt.print_exported_constant, List.map_append, Text.concat_append, ← print_make, ← hb, annotation,
    String.append_empty, String.append_assoc]

theorem print_constantWords (name : String) :
    "export const " ++ (Binding.single name).print ++ " = " = concat ((constantWords name).map Word.text) := by
  simp [constantWords, Word.text, concat, Binding.print, ← String.toList_inj]

theorem print_membersWords (op : Operation) :
    "export const " ++ (Binding.members [("useQuery", op.hookName), ("useQueryClient", op.clientHookName)]).print ++
      " = " = concat ((membersWords op).map Word.text) := by
  simp [membersWords, Word.text, concat, Binding.print, Text.join_cons_cons, ← String.toList_inj]

variable {n : Native}

theorem print_queryHook (n : Native) (op : Operation) :
    (n.queryHook op).print = concat ((n.words op .query).map Word.text) := by
  rw [queryHook, words, queryFactory]
  split
  case h_1 hc => simpa [hc] using print_exported_make _ _ _ _ (print_membersWords op)
  case h_2 hc =>
    have h := print_exported_make _ n.query op queryKeyEnum (print_constantWords op.hookName)
    simpa [hc, Stmt.exportConstant] using h

theorem print_statement :
    ∀ {part : Part}, (Strategy.native n).statement? errorType op part = some st →
      st.print = concat ((n.words op part).map Word.text)
  | .query, rfl         => n.print_queryHook op
  | .infiniteQuery, rfl => print_exported_make _ _ _ _ (print_constantWords _)
  | .mutation, rfl      => print_exported_make _ _ _ _ (print_constantWords _)
  | .subscription, rfl  => op.print_subscriptionHook
  | .document, rfl      => op.print_accessor_document

end Native

-- A name of GraphQL, with types and a document that are called after it.
structure Operation.Conventional (op : Operation) : Prop where
  name          : isName op.name
  resultType    : op.resultType = op.pascalName
  variablesType : op.variablesType = op.pascalName ++ "Variables"
  document      : op.document = op.pascalName ++ "Document"

theorem all_isIdentChar_append {s t : String} (hs : s.toList.all isIdentChar) (ht : t.toList.all isIdentChar) :
    (s ++ t).toList.all isIdentChar := by
  rw [String.toList_append, List.all_append, hs, ht, Bool.and_self]

theorem Operation.conventional_conventional (kind : Kind) {name : String} (h : isName name) :
    (conventional kind name).Conventional :=
  ⟨h, rfl, rfl, rfl⟩

namespace Operation.Conventional

variable {op : Operation} (h : op.Conventional)

include h

theorem all_pascalName : op.pascalName.toList.all isIdentChar :=
  all_isIdentChar_of_isIdentifierChars <| Text.isIdentifier_capitalize h.name

theorem all_resultType : op.resultType.toList.all isIdentChar :=
  h.resultType ▸ h.all_pascalName

theorem all_variablesType : op.variablesType.toList.all isIdentChar :=
  h.variablesType ▸ all_isIdentChar_append h.all_pascalName (by decide)

theorem all_document : op.document.toList.all isIdentChar :=
  h.document ▸ all_isIdentChar_append h.all_pascalName (by decide)

theorem all_hookName : op.hookName.toList.all isIdentChar :=
  all_isIdentChar_append (by decide) h.all_pascalName

theorem all_infiniteHookName : op.infiniteHookName.toList.all isIdentChar :=
  all_isIdentChar_append (by decide) h.all_pascalName

theorem all_clientHookName : op.clientHookName.toList.all isIdentChar :=
  all_isIdentChar_append h.all_hookName (by decide)

end Operation.Conventional

theorem valid_constantWords {name : String} (hn : name.toList.all isIdentChar) : ∀ w ∈ constantWords name, w.Valid := by
  have hp : ∀ path ∈ ["export", "const"], IsPathText path := by decide
  have hb : ∀ behind ∈ [" ", " = "], IsSignText behind := by decide
  simp only [List.forall_mem_cons] at hp hb
  simp [constantWords, Word.valid_iff, hp, hb, isPathText_of_all hn]

namespace Operation.Conventional

variable {op : Operation} (h : op.Conventional)

include h

theorem valid_subscriptionWords : ∀ w ∈ op.subscriptionWords, w.Valid := by
  have hp : ∀ path ∈ ["export", "const", argsParam, "SubscriptionHookOptions", "useSubscription", "gql"],
      IsPathText path := by
    decide
  have hb : ∀ behind ∈ [" ", " = (", ": ", "?: ", "<", ", ", ">) => ", ">(", "(", "), ", ");\n"],
      IsSignText behind := by
    decide
  have hn := isPathText_of_all h.all_hookName
  have hr := isPathText_of_all h.all_resultType
  have hv := isPathText_of_all h.all_variablesType
  have hd := isPathText_of_all h.all_document
  simp only [List.forall_mem_cons] at hp hb
  cases ht : op.hasRequiredVariables <;>
    simp [subscriptionWords, Word.valid_iff, ht, hp, hb, hn, hr, hv, hd]

theorem valid_documentWords : ∀ w ∈ op.documentWords, w.Valid := by
  have hb : ∀ behind ∈ [" = ", ";\n"], IsSignText behind := by decide
  have hn := (isPathText_of_all h.all_hookName).append (t := ".") (by decide) |>.append (t := "document") (by decide)
  have hd := isPathText_of_all h.all_document
  simp only [List.forall_mem_cons] at hb
  simp [documentWords, Word.valid_iff, hb, hn, hd]

theorem valid_membersWords : ∀ w ∈ Native.membersWords op, w.Valid := by
  have hp : ∀ path ∈ ["export", "const", "useQuery", "useQueryClient"], IsPathText path := by decide
  have hb : ∀ behind ∈ [" ", " \x7b ", ": ", ", ", " \x7d = "], IsSignText behind := by decide
  have hn := isPathText_of_all h.all_hookName
  have hc := isPathText_of_all h.all_clientHookName
  simp only [List.forall_mem_cons] at hp hb
  simp [Native.membersWords, Word.valid_iff, hp, hb, hn, hc]

theorem valid_makeWords (hf : IsPathText factory.callee) (hk : IsPathText keyEnum) :
    ∀ w ∈ Native.makeWords factory op keyEnum, w.Valid := by
  have hb : ∀ behind ∈ ["<", ", ", ">(", ");\n"], IsSignText behind := by decide
  have hr := isPathText_of_all h.all_resultType
  have hv := isPathText_of_all h.all_variablesType
  have hd := isPathText_of_all h.all_document
  have he := hk.append (t := ".") (by decide) |>.append <| isPathText_of_all h.all_pascalName
  simp only [List.forall_mem_cons] at hb
  simp [Native.makeWords, Word.valid_iff, hb, hf, hr, hv, hd, he]

theorem valid_words {n : Native} (hm : ∀ m ∈ n.mappers, IsPathText m.callee) (part : Part) :
    ∀ w ∈ n.words op part, w.Valid := by
  have hq : IsPathText queryKeyEnum := by decide
  have hu : IsPathText mutationKeyEnum := by decide
  cases part
  case query         =>
    have hf := hm _ n.queryFactory_mem_mappers
    refine List.forall_mem_append.mpr ⟨?_, h.valid_makeWords hf hq⟩
    split
    case isTrue  => exact h.valid_membersWords
    case isFalse => exact valid_constantWords h.all_hookName
  case infiniteQuery =>
    have hf := hm _ n.infinite_mem_mappers
    exact List.forall_mem_append.mpr ⟨valid_constantWords h.all_infiniteHookName, h.valid_makeWords hf hq⟩
  case mutation      =>
    have hf := hm _ n.mutation_mem_mappers
    exact List.forall_mem_append.mpr ⟨valid_constantWords h.all_hookName, h.valid_makeWords hf hu⟩
  case subscription  => exact h.valid_subscriptionWords
  case document      => exact h.valid_documentWords
  case getKey        => exact List.forall_mem_nil _
  case fetcher       => exact List.forall_mem_nil _

end Operation.Conventional

open Word (roots roots_cons roots_append beginsWithColon)

theorem roots_constantWords {name : String} (hn : name.toList.all isIdentChar) :
    roots (constantWords name) = ["export", "const", name] := by
  have hp : ∀ path ∈ ["export", "const"], rootOf path = path := by decide
  have hb : ∀ behind ∈ [" ", " = "], beginsWithColon behind = false := by decide
  simp only [List.forall_mem_cons] at hp hb
  simp [constantWords, roots_cons, hb, hp, rootOf_of_all hn]

namespace Operation.Conventional

variable {op : Operation} (h : op.Conventional)

include h

theorem roots_makeWords (hk : keyEnum.toList.all isIdentChar) :
    roots (Native.makeWords factory op keyEnum) =
      [rootOf factory.callee, op.resultType, op.variablesType, op.document, keyEnum] := by
  have hb : ∀ behind ∈ ["<", ", ", ">(", ");\n"], beginsWithColon behind = false := by decide
  simp only [List.forall_mem_cons] at hb
  simp [Native.makeWords, roots_cons, hb, rootOf_of_all h.all_resultType, rootOf_of_all h.all_variablesType,
    rootOf_of_all h.all_document, rootOf_member hk]

theorem roots_membersWords :
    roots (Native.membersWords op) = ["export", "const", op.hookName, op.clientHookName] := by
  have hp : ∀ path ∈ ["export", "const", "useQuery", "useQueryClient"], rootOf path = path := by decide
  have hb : ∀ behind ∈ [" ", " \x7b ", ", ", " \x7d = "], beginsWithColon behind = false := by decide
  have hk : beginsWithColon ": " := by decide
  simp only [List.forall_mem_cons] at hp hb
  simp [Native.membersWords, roots_cons, hb, hp, hk, rootOf_of_all h.all_hookName, rootOf_of_all h.all_clientHookName]

theorem roots_documentWords : roots op.documentWords = [op.hookName, op.document] := by
  have hb : ∀ behind ∈ [" = ", ";\n"], beginsWithColon behind = false := by decide
  simp only [List.forall_mem_cons] at hb
  simp [documentWords, roots_cons, hb, rootOf_member h.all_hookName, rootOf_of_all h.all_document]

theorem roots_subscriptionWords_subset :
    roots op.subscriptionWords ⊆ [
      "export", "const", op.hookName, argsParam, "SubscriptionHookOptions", op.resultType, op.variablesType,
      "useSubscription", "gql", op.document] := by
  have hp : ∀ path ∈ ["export", "const", argsParam, "SubscriptionHookOptions", "useSubscription", "gql"],
      rootOf path = path := by
    decide
  have hb : ∀ behind ∈ [" ", " = (", "?: ", "<", ", ", ">) => ", ">(", "(", "), ", ");\n"],
      beginsWithColon behind = false := by
    decide
  have hk : beginsWithColon ": " := by decide
  simp only [List.forall_mem_cons] at hp hb
  cases ht : op.hasRequiredVariables <;>
    simp [subscriptionWords, roots_cons, ht, hb, hp, hk, rootOf_of_all h.all_hookName, rootOf_of_all h.all_resultType,
      rootOf_of_all h.all_variablesType, rootOf_of_all h.all_document]

end Operation.Conventional

-- What can be imported for the hooks of react-query.
def reactQueryNames : List String :=
  HookMethod.query.names ++ HookMethod.infiniteQuery.names ++ HookMethod.mutation.names

theorem append_not_mem_reactQueryNames (ht : t ∈ ["Variables", "Document"]) (s : String) :
    s ++ t ∉ reactQueryNames := by
  have hall : ∀ t ∈ ["Variables", "Document"], ∀ n ∈ reactQueryNames, ¬t.toList <:+ n.toList := by decide
  intro hm
  refine hall t ht _ hm ?_
  rw [String.toList_append]
  exact List.suffix_append ..

namespace Operation.Conventional

variable {op : Operation} (h : op.Conventional)

include h

theorem variablesType_not_mem : op.variablesType ∉ reactQueryNames :=
  h.variablesType ▸ append_not_mem_reactQueryNames (by simp) _

theorem document_not_mem : op.document ∉ reactQueryNames :=
  h.document ▸ append_not_mem_reactQueryNames (by simp) _

-- What is left of the names of react-query are the names that are exported, and the type of results.
theorem mem_exports_of_mem_roots {n : Native} (hi : ident ∈ reactQueryNames)
    (hm : ∀ m ∈ n.mappers, rootOf m.callee ≠ ident) (part : Part) (hr : ident ∈ roots (n.words op part)) :
    ident ∈ (Strategy.native n).exports op part ∨ ident = op.hookName ∨ ident = op.resultType := by
  have hne {t : String} (ht : t ∉ reactQueryNames) : ident ≠ t := fun he => ht <| he ▸ hi
  have hv := hne h.variablesType_not_mem
  have hd := hne h.document_not_mem
  have ht : ∀ t ∈ ["export", "const", argsParam, "SubscriptionHookOptions", "useSubscription", "gql", queryKeyEnum,
      mutationKeyEnum], t ∉ reactQueryNames := by
    decide
  have ht : ∀ t ∈ ["export", "const", argsParam, "SubscriptionHookOptions", "useSubscription", "gql", queryKeyEnum,
      mutationKeyEnum], ident ≠ t := fun t hm => hne <| ht t hm
  simp only [List.forall_mem_cons] at ht
  have hq : ident ≠ rootOf n.queryFactory.callee := (hm _ n.queryFactory_mem_mappers).symm
  have hf : ident ≠ rootOf n.infinite.callee := (hm _ n.infinite_mem_mappers).symm
  have hu : ident ≠ rootOf n.mutation.callee := (hm _ n.mutation_mem_mappers).symm
  cases part
  case query         =>
    rw [Native.words, roots_append, h.roots_makeWords (by decide)] at hr
    cases hc : n.combined.isSome
    case false =>
      rw [hc, if_neg nofun, roots_constantWords h.all_hookName] at hr
      have hr : ident = op.hookName ∨ ident = op.resultType := by simpa [ht, hv, hd, hq] using hr
      exact .inr hr
    case true  =>
      rw [hc, if_pos rfl, h.roots_membersWords] at hr
      have hr : ident = op.hookName ∨ ident = op.clientHookName ∨ ident = op.resultType := by
        simpa [ht, hv, hd, hq] using hr
      have he : (Strategy.native n).exports op .query = [op.hookName, op.clientHookName] := by
        simp [Strategy.exports, Strategy.isCombined, hc]
      rcases hr with rfl | rfl | rfl
      · exact .inr <| .inl rfl
      · exact .inl <| he ▸ .tail _ (.head _)
      · exact .inr <| .inr rfl
  case infiniteQuery =>
    rw [Native.words, roots_append, roots_constantWords h.all_infiniteHookName, h.roots_makeWords (by decide)] at hr
    have hr : ident = op.infiniteHookName ∨ ident = op.resultType := by simpa [ht, hv, hd, hf] using hr
    exact hr.imp List.mem_singleton.mpr .inr
  case mutation      =>
    rw [Native.words, roots_append, roots_constantWords h.all_hookName, h.roots_makeWords (by decide)] at hr
    have hr : ident = op.hookName ∨ ident = op.resultType := by simpa [ht, hv, hd, hu] using hr
    exact .inr hr
  case subscription  =>
    have hr : ident = op.hookName ∨ ident = op.resultType := by
      simpa [ht, hv, hd] using h.roots_subscriptionWords_subset hr
    exact .inr hr
  case document      =>
    rw [Native.words, h.roots_documentWords] at hr
    have hr : ident = op.hookName := by simpa [hd] using hr
    exact .inr <| .inl hr
  case getKey        => contradiction
  case fetcher       => contradiction

end Operation.Conventional
end QueryHooks
