import Mathlib.Algebra.GroupWithZero.Nat
import KeysetBundle.KeysetSource
import KeysetBundle.Proofs.Script.Values

/-!
# The exports of a script

A script is walked from left to right.  An assignment to the exports is listed
where it is met, and neither its target nor its value is walked; of anything
else the parts are walked, except in functions and classes (`Lists`).  The
assignments that are listed take effect one after the other (`TakesEffect`).

Main results.

- `lists_iff`: the assignments that are found are those of the walk.
- `collect_eq_error_iff`, `takesEffect_of_collect`: what is collected.
- `ofSource_exports`: the collection of a keyset file, or the first fault in it.
-/

namespace KeysetBundle.Script

open KeysetBundle.Text (ofCodePoints?)

namespace Node

/-! ## Assignments to the exports -/

/-- A member of an object that is named directly or by a text in quotes. -/
inductive IsMember : Node → Node → String → Prop
  /-- `owner.key` -/
  | name {line : Nat} {owner : Node} {key : String} : IsMember (.member line owner key) owner key
  /-- `owner['key']` -/
  | text {line place : Nat} {owner : Node} {points : List Nat} {key : String}
    (h : ofCodePoints? points = some key) :
    IsMember (.index line owner (.text place points)) owner key

/-- `module.exports` -/
def IsModuleExports (node : Node) : Prop := ∃ line, node.IsMember (.name line "module") "exports"

/-- `exports` or `module.exports` -/
def IsExports (node : Node) : Prop := (∃ line, node = .name line "exports") ∨ node.IsModuleExports

/-- An assignment to the exports. -/
inductive Exports : Node → Assignment → Prop
  /-- `export default value` -/
  | default {line : Nat} {value : Node} : Exports (.exportDefault line value) ⟨.whole, value⟩
  /-- `module.exports = value` -/
  | whole {line : Nat} {target value : Node} (h : target.IsModuleExports) :
    Exports (.assign line target value) ⟨.whole, value⟩
  /-- `exports.name = value` -/
  | keyset {line : Nat} {target owner value : Node} {name : String}
    (h : target.IsMember owner name) (howner : owner.IsExports) :
    Exports (.assign line target value) ⟨.keyset name, value⟩

theorem memberParts?_eq_some_iff {node owner : Node} {key : String} :
    node.memberParts? = some (owner, key) ↔ node.IsMember owner key := by
  constructor
  · intro h
    unfold memberParts? at h
    split at h
    · cases h
      exact .name
    · obtain ⟨found, hfound, heq⟩ := Option.map_eq_some_iff.1 h
      cases heq
      exact .text hfound
    · cases h
  · intro h
    cases h with
    | name => rfl
    | text hkey => simp only [memberParts?, hkey, Option.map_some]

theorem isNamed_iff {node : Node} {id : String} :
    node.isNamed id ↔ ∃ line, node = .name line id := by
  constructor
  · intro h
    unfold isNamed at h
    split at h
    · rename_i line other
      exact ⟨line, by rw [eq_of_beq h]⟩
    · cases h
  · rintro ⟨line, rfl⟩
    simp [isNamed]

theorem isModuleExports_iff {node : Node} : node.isModuleExports ↔ node.IsModuleExports := by
  unfold isModuleExports IsModuleExports
  cases hparts : node.memberParts? with
  | none =>
      simp only [Bool.false_eq_true, false_iff, not_exists]
      intro line hmember
      rw [memberParts?_eq_some_iff.2 hmember] at hparts
      cases hparts
  | some parts =>
      obtain ⟨owner, key⟩ := parts
      have hmember := memberParts?_eq_some_iff.1 hparts
      simp only [Bool.and_eq_true, isNamed_iff, beq_iff_eq]
      constructor
      · rintro ⟨⟨line, rfl⟩, rfl⟩
        exact ⟨line, hmember⟩
      · intro ⟨line, h⟩
        rw [memberParts?_eq_some_iff.2 h] at hparts
        cases hparts
        exact ⟨⟨line, rfl⟩, rfl⟩

theorem IsMember.unique {node owner owner' : Node} {key key' : String} (h : node.IsMember owner key)
    (h' : node.IsMember owner' key') : owner' = owner ∧ key' = key := by
  have hsame := (memberParts?_eq_some_iff.2 h').symm.trans (memberParts?_eq_some_iff.2 h)
  cases hsame
  exact ⟨rfl, rfl⟩

/-- The exports themselves are not a member of the exports. -/
theorem IsModuleExports.not_isExports {node owner : Node} {key : String} (h : node.IsModuleExports)
    (hmember : node.IsMember owner key) : ¬owner.IsExports := by
  obtain ⟨line, hmodule⟩ := h
  obtain ⟨rfl, rfl⟩ := hmodule.unique hmember
  rintro (⟨line', hname⟩ | ⟨line', hinner⟩)
  · injection hname with _ hid
    exact absurd hid (by decide)
  · cases hinner

theorem isExports_iff {node : Node} :
    (node.isNamed "exports" || node.isModuleExports) ↔ node.IsExports := by
  simp only [Bool.or_eq_true, isNamed_iff, isModuleExports_iff, IsExports]

theorem exportTarget?_eq_some_iff {target : Node} {found : ExportTarget} :
    target.exportTarget? = some found ↔ (found = .whole ∧ target.IsModuleExports) ∨
      ∃ owner name, found = .keyset name ∧ target.IsMember owner name ∧ owner.IsExports := by
  unfold exportTarget?
  cases hparts : target.memberParts? with
  | none =>
      have hno : ∀ owner name, ¬target.IsMember owner name := by
        intro owner name hmember
        rw [memberParts?_eq_some_iff.2 hmember] at hparts
        cases hparts
      simp [hno, IsModuleExports]
  | some parts =>
      obtain ⟨owner, key⟩ := parts
      have hmember := memberParts?_eq_some_iff.1 hparts
      dsimp only
      by_cases hwhole : target.IsModuleExports
      · rw [if_pos (isModuleExports_iff.2 hwhole)]
        constructor
        · intro h
          cases h
          exact .inl ⟨rfl, hwhole⟩
        · rintro (⟨rfl, -⟩ | ⟨owner', name, -, hmember', howner⟩)
          · rfl
          · exact absurd howner (hwhole.not_isExports hmember')
      · rw [if_neg fun h => hwhole (isModuleExports_iff.1 h)]
        constructor
        · intro h
          split at h
          · rename_i howner
            cases h
            exact .inr ⟨owner, key, rfl, hmember, isExports_iff.1 howner⟩
          · cases h
        · rintro (⟨-, h⟩ | ⟨owner', name, rfl, hmember', howner⟩)
          · exact absurd h hwhole
          · obtain ⟨rfl, rfl⟩ := hmember.unique hmember'
            rw [if_pos (isExports_iff.2 howner)]

/-- The assignment that a node is, if it is one to the exports. -/
def exported? : Node → Option Assignment
  | .assign _ target value => target.exportTarget?.map (⟨·, value⟩)
  | .exportDefault _ value => some ⟨.whole, value⟩
  | _ => none

theorem exported?_eq_some_iff {node : Node} {assignment : Assignment} :
    node.exported? = some assignment ↔ node.Exports assignment := by
  constructor
  · intro h
    cases node with
    | assign line target value =>
        obtain ⟨found, hfound, rfl⟩ := Option.map_eq_some_iff.1 h
        rcases exportTarget?_eq_some_iff.1 hfound with
          ⟨rfl, hwhole⟩ | ⟨owner, name, rfl, hmember, howner⟩
        · exact .whole hwhole
        · exact .keyset hmember howner
    | exportDefault line value =>
        cases h
        exact .default
    | _ => cases h
  · intro h
    cases h with
    | default => rfl
    | whole hwhole =>
        simp only [exported?, exportTarget?_eq_some_iff.2 (.inl ⟨rfl, hwhole⟩), Option.map_some]
    | keyset hmember howner =>
        simp only [exported?, exportTarget?_eq_some_iff.2 (.inr ⟨_, _, rfl, hmember, howner⟩),
          Option.map_some]

/-! ## The walk -/

/-- The parts of a node, in the order in which they are written, but for those of functions and
classes. -/
def walked : Node → List Node
  | .name .. => []
  | .text .. => []
  | .number .. => []
  | .template _ _ substitutions => substitutions
  | .paren _ inner => [inner]
  | .member _ owner _ => [owner]
  | .index _ owner key => [owner, key]
  | .sum _ left right => [left, right]
  | .assign _ target value => [target, value]
  | .object _ properties => properties
  | .property _ key value => [key, value]
  | .method _ key _ => [key]
  | .accessor _ key params body => key :: (params ++ body)
  | .spread _ _ inner => [inner]
  | .exportDefault _ value => [value]
  | .function .. => []
  | .class .. => []
  -- the condition of this loop is written behind the body
  | .form _ .doLoop [test, body] => [body, test]
  | .form _ _ parts => parts

/-- The assignments to the exports that are met where nodes are walked from left to right. -/
inductive Lists : List Node → List Assignment → Prop
  /-- Nothing is walked. -/
  | nil : Lists [] []
  /-- An assignment is listed, and its target and its value are not walked. -/
  | exports {node : Node} {rest : List Node} {assignment : Assignment} {others : List Assignment}
    (h : node.Exports assignment) (hrest : Lists rest others) :
    Lists (node :: rest) (assignment :: others)
  /-- Of anything else the parts are walked. -/
  | parts {node : Node} {rest : List Node} {found : List Assignment}
    (h : ∀ assignment, ¬node.Exports assignment) (hrest : Lists (node.walked ++ rest) found) :
    Lists (node :: rest) found

/-- What is met where nodes are walked. -/
inductive Met (nodes : List Node) : Node → Prop
  /-- One of the nodes. -/
  | mem {node : Node} (h : node ∈ nodes) : Met nodes node
  /-- A part of what is met, unless this is an assignment to the exports. -/
  | part {node part : Node} (hnode : Met nodes node) (h : ∀ assignment, ¬node.Exports assignment)
    (hpart : part ∈ node.walked) : Met nodes part

theorem Met.mono {nodes others : List Node} (h : ∀ node ∈ nodes, Met others node) {node : Node}
    (hmet : Met nodes node) : Met others node := by
  induction hmet with
  | mem hmem => exact h _ hmem
  | part _ hexports hpart ih => exact .part ih hexports hpart

/-- No loop that is met has assignments to the exports both in its body and in a condition behind
it. -/
def LoopsApart (nodes : List Node) : Prop :=
  ∀ line test body, Met nodes (.form line .doLoop [test, body]) →
    Lists [test] [] ∨ Lists [body] []

theorem LoopsApart.mono {nodes others : List Node} (h : LoopsApart nodes)
    (hmet : ∀ node ∈ others, Met nodes node) : LoopsApart others :=
  fun line test body hloop => h line test body (hloop.mono hmet)

theorem LoopsApart.tail {node : Node} {rest : List Node} (h : LoopsApart (node :: rest)) :
    LoopsApart rest :=
  h.mono fun other hother => .mem (by simp [hother])

theorem LoopsApart.parts {node : Node} {rest : List Node} (h : LoopsApart (node :: rest))
    (hexports : ∀ assignment, ¬node.Exports assignment) : LoopsApart (node.walked ++ rest) := by
  refine h.mono fun other hother => ?_
  rcases List.mem_append.1 hother with hpart | hrest
  · exact .part (.mem (by simp)) hexports hpart
  · exact .mem (by simp [hrest])

/-! ## What is found -/

theorem assignmentsOfAll_append (nodes others : List Node) :
    assignmentsOfAll (nodes ++ others) = assignmentsOfAll nodes ++ assignmentsOfAll others := by
  induction nodes with
  | nil => simp [assignmentsOfAll]
  | cons node nodes ih => simp [assignmentsOfAll, ih]

theorem assignments_of_exports {node : Node} {assignment : Assignment}
    (h : node.Exports assignment) :
    assignments node = [assignment] := by
  cases h with
  | default => rw [assignments]
  | whole hwhole =>
      rw [assignments, exportTarget?_eq_some_iff.2 (.inl ⟨rfl, hwhole⟩)]
  | keyset hmember howner =>
      rw [assignments, exportTarget?_eq_some_iff.2 (.inr ⟨_, _, rfl, hmember, howner⟩)]

/-- The parts of a node that are searched for assignments, in the order of the search. -/
theorem assignments_of_not_exports {node : Node} (h : ∀ assignment, ¬node.Exports assignment)
    (hloop : ∀ line test body, node = .form line .doLoop [test, body] →
      assignments test = [] ∨ assignments body = []) :
    assignments node = assignmentsOfAll node.walked := by
  cases node with
  | assign line target value =>
      cases hfound : target.exportTarget? with
      | none => simp [assignments, hfound, walked, assignmentsOfAll]
      | some found =>
          refine absurd (exported?_eq_some_iff.1 ?_) (h ⟨found, value⟩)
          simp [exported?, hfound]
  | exportDefault line value => exact absurd .default (h _)
  | form line kind parts =>
      by_cases hdo : ∃ test body, kind = .doLoop ∧ parts = [test, body]
      · obtain ⟨test, body, rfl, rfl⟩ := hdo
        rcases hloop line test body rfl with htest | hbody
        · simp [assignments, walked, assignmentsOfAll, htest]
        · simp [assignments, walked, assignmentsOfAll, hbody]
      · have hwalked : (form line kind parts).walked = parts :=
          walked.eq_19 line kind parts fun test body hkind hparts => hdo ⟨test, body, hkind, hparts⟩
        rw [hwalked, assignments]
  | _ => simp [assignments, walked, assignmentsOfAll, assignmentsOfAll_append]

/-- What is listed is determined by what is walked. -/
theorem Lists.unique {nodes : List Node} {found others : List Assignment} (h : Lists nodes found)
    (h' : Lists nodes others) : others = found := by
  induction h generalizing others with
  | nil =>
      cases h'
      rfl
  | exports hnode hrest ih =>
      cases h' with
      | exports hnode' hrest' =>
          have hsame := (exported?_eq_some_iff.2 hnode').symm.trans (exported?_eq_some_iff.2 hnode)
          cases hsame
          rw [ih hrest']
      | parts hnone hrest' => exact absurd hnode (hnone _)
  | parts hnone hrest ih =>
      cases h' with
      | exports hnode hrest' => exact absurd hnode (hnone _)
      | parts _ hrest' => exact ih hrest'

theorem sum_sizeOf_lt (nodes : List Node) : (nodes.map sizeOf).sum < sizeOf nodes := by
  induction nodes with
  | nil => simp
  | cons node nodes ih =>
      simp only [List.map_cons, List.sum_cons, List.cons.sizeOf_spec]
      omega

/-- A node is larger than its parts together. -/
theorem sum_sizeOf_walked_lt (node : Node) : (node.walked.map sizeOf).sum < sizeOf node := by
  cases node with
  | template line pieces substitutions =>
      have := sum_sizeOf_lt substitutions
      simp only [walked, Node.template.sizeOf_spec]
      omega
  | object line properties =>
      have := sum_sizeOf_lt properties
      simp only [walked, Node.object.sizeOf_spec]
      omega
  | accessor line key params body =>
      have := sum_sizeOf_lt params
      have := sum_sizeOf_lt body
      simp only [walked, List.map_cons, List.map_append, List.sum_cons, List.sum_append,
        Node.accessor.sizeOf_spec]
      omega
  | form line kind parts =>
      have := sum_sizeOf_lt parts
      unfold walked
      split <;> simp_all <;> omega
  | _ => simp [walked] <;> omega

theorem sizeOf_lt_of_mem_walked {node part : Node} (h : part ∈ node.walked) :
    sizeOf part < sizeOf node := by
  obtain ⟨before, after, hparts⟩ := List.append_of_mem h
  have hsum := sum_sizeOf_walked_lt node
  rw [hparts] at hsum
  simp only [List.map_append, List.map_cons, List.sum_append, List.sum_cons] at hsum
  omega

/-- The search finds the assignments that the walk lists. The recursion is on the size of the nodes
that are still to be walked. -/
theorem lists_assignmentsOfAll {nodes : List Node} (h : LoopsApart nodes) :
    Lists nodes (assignmentsOfAll nodes) := by
  cases nodes with
  | nil => exact .nil
  | cons node rest =>
      by_cases hexports : ∃ assignment, node.Exports assignment
      · obtain ⟨assignment, hassignment⟩ := hexports
        rw [assignmentsOfAll, assignments_of_exports hassignment]
        exact .exports hassignment (lists_assignmentsOfAll h.tail)
      · have hnone : ∀ assignment, ¬node.Exports assignment :=
          fun assignment h => hexports ⟨assignment, h⟩
        -- of a part in which the walk finds nothing, the search finds nothing
        have hpart : ∀ part ∈ node.walked, Lists [part] [] → assignments part = [] := by
          intro part hpart hlists
          have hapart : LoopsApart [part] := by
            refine h.mono fun other hother => ?_
            rw [List.mem_singleton.1 hother]
            exact .part (.mem (by simp)) hnone hpart
          have hfound := hlists.unique (lists_assignmentsOfAll hapart)
          simpa [assignmentsOfAll] using hfound
        have hloop : ∀ line test body, node = .form line .doLoop [test, body] →
            assignments test = [] ∨ assignments body = [] := by
          rintro line test body rfl
          exact (h line test body (.mem (by simp))).imp (hpart test (by simp [walked]))
            (hpart body (by simp [walked]))
        have hrest := lists_assignmentsOfAll (h.parts hnone)
        rw [assignmentsOfAll_append, ← assignments_of_not_exports hnone hloop] at hrest
        exact .parts hnone hrest
termination_by (nodes.map sizeOf).sum
decreasing_by
  all_goals
    have hnode := sum_sizeOf_walked_lt node
    subst_vars
    simp only [List.map_cons, List.map_nil, List.map_append, List.sum_cons, List.sum_nil,
      List.sum_append]
  · omega
  · have := sizeOf_lt_of_mem_walked hpart
    omega
  · omega

/-- **The assignments that are found are those of the walk.** -/
theorem lists_iff {nodes : List Node} (h : LoopsApart nodes) {found : List Assignment} :
    Lists nodes found ↔ found = assignmentsOfAll nodes := by
  constructor
  · intro hfound
    exact (lists_assignmentsOfAll h).unique hfound
  · rintro rfl
    exact lists_assignmentsOfAll h

end Node

/-! ## The effect of assignments -/

/-- What an assignment gives to the exports. -/
inductive Export
  /-- A collection in place of all that was exported. -/
  | whole (collection : Collection)
  /-- A keyset under a name. -/
  | keyset (name : String) (keys : Keyset)

namespace Assignment

/-- What an assignment gives to the exports if its value can be evaluated. -/
inductive Gives : Assignment → Export → Prop
  /-- A collection. -/
  | whole {value : Node} {collection : Collection} (h : value.HasCollection collection) :
    Gives ⟨.whole, value⟩ (.whole collection)
  /-- A keyset. -/
  | keyset {name : String} {value : Node} {keys : Keyset} (h : value.HasKeyset keys) :
    Gives ⟨.keyset name, value⟩ (.keyset name keys)

/-- What is wrong first in the value of an assignment. -/
inductive Fault : Assignment → Unsupported → Prop
  /-- It should be a collection. -/
  | whole {value : Node} {e : Unsupported} (h : value.CollectionFault e) : Fault ⟨.whole, value⟩ e
  /-- It should be a keyset. -/
  | keyset {name : String} {value : Node} {e : Unsupported} (h : value.KeysetFault e) :
    Fault ⟨.keyset name, value⟩ e

end Assignment

/-- What is exported before and after an assignment took effect. -/
inductive Export.Turns : Export → Collection → Collection → Prop
  /-- A collection replaces all. -/
  | whole {before collection : Collection} : Turns (.whole collection) before collection
  /-- A keyset replaces the one of its name, and no other. -/
  | keyset {name : String} {keys : Keyset} {before after : Collection}
    (hself : after.get? name = some keys)
    (hothers : ∀ other, other ≠ name → after.get? other = before.get? other) :
    Turns (.keyset name keys) before after

/-- Assignments take effect one after the other. -/
inductive TakesEffect : List Assignment → Collection → Collection → Prop
  /-- There is none. -/
  | nil {exports : Collection} : TakesEffect [] exports exports
  /-- One of them takes effect before the others. -/
  | cons {assignment : Assignment} {rest : List Assignment} {given : Export}
    {before middle after : Collection} (hgives : assignment.Gives given)
    (hturns : given.Turns before middle) (hrest : TakesEffect rest middle after) :
    TakesEffect (assignment :: rest) before after

/-! ## What is collected -/

namespace Assignment

theorem apply_eq_error_iff {exports : Option Collection} {assignment : Assignment}
    {e : Unsupported} : assignment.apply exports = .error e ↔ assignment.Fault e := by
  obtain ⟨target, value⟩ := assignment
  constructor
  · intro h
    cases target with
    | whole =>
        rcases bind_eq_error.1 h with hvalue | ⟨collection, -, hnone⟩
        · exact .whole (Node.evaluates_collection.fault.1 hvalue)
        · cases hnone
    | keyset name =>
        rcases bind_eq_error.1 h with hvalue | ⟨keys, -, hnone⟩
        · exact .keyset (Node.evaluates_keyset.fault.1 hvalue)
        · cases hnone
  · intro h
    cases h with
    | whole hvalue => exact bind_eq_error.2 (.inl (Node.evaluates_collection.fault.2 hvalue))
    | keyset hvalue => exact bind_eq_error.2 (.inl (Node.evaluates_keyset.fault.2 hvalue))

/-- An assignment whose value can be evaluated takes effect. -/
theorem turns_of_apply {exports found : Option Collection} {assignment : Assignment}
    (h : assignment.apply exports = .ok found) : ∃ given after, assignment.Gives given ∧
      given.Turns (exports.getD .empty) after ∧ found = some after := by
  obtain ⟨target, value⟩ := assignment
  cases target with
  | whole =>
      obtain ⟨collection, hvalue, h⟩ := bind_eq_ok.1 h
      cases h
      exact ⟨_, collection, .whole (Node.evaluates_collection.value hvalue), .whole, rfl⟩
  | keyset name =>
      obtain ⟨keys, hvalue, h⟩ := bind_eq_ok.1 h
      cases h
      refine ⟨_, _, .keyset (Node.evaluates_keyset.value hvalue), .keyset ?_ ?_, rfl⟩
      · rw [Dictionary.get?_insert_self]
      · intro other hother
        rw [Dictionary.get?_insert, if_neg hother]

theorem Gives.not_fault {assignment : Assignment} {given : Export} (h : assignment.Gives given)
    (e : Unsupported) : ¬assignment.Fault e := by
  intro hfault
  cases h with
  | whole hvalue =>
      cases hfault with
      | whole hno => exact Node.evaluates_collection.exclusive hvalue hno
  | keyset hvalue =>
      cases hfault with
      | keyset hno => exact Node.evaluates_keyset.exclusive hvalue hno

/-- An assignment can be evaluated exactly if it can be applied to some exports. -/
theorem exists_gives_iff {assignment : Assignment} {exports : Option Collection} :
    (∃ given, assignment.Gives given) ↔ ∃ found, assignment.apply exports = .ok found := by
  constructor
  · intro ⟨given, hgiven⟩
    cases hfound : assignment.apply exports with
    | ok found => exact ⟨found, rfl⟩
    | error e => exact absurd (apply_eq_error_iff.1 hfound) (hgiven.not_fault e)
  · intro ⟨found, hfound⟩
    obtain ⟨given, _, hgiven, -⟩ := turns_of_apply hfound
    exact ⟨given, hgiven⟩

end Assignment

/-- What is applied one after the other fails at the first fault. -/
theorem foldlM_eq_error_iff {assignments : List Assignment} {exports : Option Collection}
    {e : Unsupported} : assignments.foldlM Assignment.apply exports = .error e ↔
      First Assignment.Gives Assignment.Fault assignments e := by
  induction assignments generalizing exports with
  | nil =>
      constructor
      · intro h
        cases h
      · intro ⟨before, item, after, hsplit, _⟩
        simp at hsplit
  | cons assignment rest ih =>
      have hgives : (∃ given, assignment.Gives given) ↔
          ∃ found, assignment.apply exports = .ok found := Assignment.exists_gives_iff
      rw [List.foldlM_cons, bind_eq_error, Assignment.apply_eq_error_iff, first_cons, hgives]
      simp only [ih, exists_and_right]

/-- What is applied one after the other takes effect one after the other. -/
theorem takesEffect_of_foldlM {assignments : List Assignment} {before : Collection}
    {found : Option Collection}
    (h : assignments.foldlM Assignment.apply (some before) = .ok found) :
    ∃ after, TakesEffect assignments before after ∧ found = some after := by
  induction assignments generalizing before with
  | nil =>
      cases h
      exact ⟨before, .nil, rfl⟩
  | cons assignment rest ih =>
      obtain ⟨_, happly, h⟩ := bind_eq_ok.1 h
      obtain ⟨given, middle, hgives, hturns, rfl⟩ := Assignment.turns_of_apply happly
      obtain ⟨after, heffect, hfound⟩ := ih h
      exact ⟨after, .cons hgives hturns heffect, hfound⟩

/-- **The assignments of a script are collected up to the first fault.** -/
theorem collect_eq_error_iff {assignments : List Assignment} {e : Unsupported} :
    collect assignments = .error e ↔ First Assignment.Gives Assignment.Fault assignments e :=
  foldlM_eq_error_iff

/-- **What is collected** is what the assignments make of no exports, if there are any. -/
theorem takesEffect_of_collect {assignments : List Assignment} {found : Option Collection}
    (hsome : assignments ≠ []) (h : collect assignments = .ok found) :
    ∃ after, TakesEffect assignments .empty after ∧ found = some after := by
  cases assignments with
  | nil => exact absurd rfl hsome
  | cons assignment rest =>
      obtain ⟨_, happly, h⟩ := bind_eq_ok.1 h
      obtain ⟨given, middle, hgives, hturns, rfl⟩ := Assignment.turns_of_apply happly
      obtain ⟨after, heffect, hfound⟩ := takesEffect_of_foldlM h
      exact ⟨after, .cons hgives hturns heffect, hfound⟩

theorem TakesEffect.gives {assignments : List Assignment} {before after : Collection}
    (h : TakesEffect assignments before after) :
    ∀ assignment ∈ assignments, ∃ given, assignment.Gives given := by
  induction h with
  | nil => simp
  | cons hgives hturns hrest ih =>
      intro assignment hmem
      rcases List.mem_cons.1 hmem with rfl | hmem
      · exact ⟨_, hgives⟩
      · exact ih assignment hmem

/-- What cannot be evaluated has a first fault. -/
theorem exists_first_fault {assignments : List Assignment}
    (h : ∃ assignment ∈ assignments, ¬∃ given, assignment.Gives given) :
    ∃ e, First Assignment.Gives Assignment.Fault assignments e := by
  obtain ⟨assignment, hmem, hnone⟩ := h
  cases hcollect : collect assignments with
  | error e => exact ⟨e, collect_eq_error_iff.1 hcollect⟩
  | ok found =>
      obtain ⟨after, heffect, -⟩ := takesEffect_of_collect (List.ne_nil_of_mem hmem) hcollect
      exact absurd (heffect.gives assignment hmem) hnone

theorem First.not_gives {assignments : List Assignment} {e : Unsupported}
    (h : First Assignment.Gives Assignment.Fault assignments e) :
    ∃ assignment ∈ assignments, ¬∃ given, assignment.Gives given := by
  obtain ⟨before, assignment, after, rfl, -, hfault⟩ := h
  exact ⟨assignment, by simp, fun ⟨given, hgiven⟩ => hgiven.not_fault e hfault⟩

/-! ## Keyset files -/

/-- **What a keyset file exports.**  The assignments to the exports are those that are met where the
items are walked as they are written.  If one of them has no value, the error is that of the first
one, whatever comes later.  Otherwise the file exports nothing if there are none, and else what they
make of no exports one after the other. -/
theorem ofSource_exports {source : String} {items : List Node} (h : parse source = .ok items)
    (hloops : Node.LoopsApart items) (path : Path) :
    ∃ assignments, Node.Lists items assignments ∧
      (∀ others, Node.Lists items others → others = assignments) ∧
      ((∃ assignment ∈ assignments, ¬∃ given, assignment.Gives given) →
        (∃ e, First Assignment.Gives Assignment.Fault assignments e) ∧
        ∀ e, First Assignment.Gives Assignment.Fault assignments e →
          Collection.ofSource source path = .error (.unsupported path e)) ∧
      ((∀ assignment ∈ assignments, ∃ given, assignment.Gives given) →
        (assignments = [] → Collection.ofSource source path = .error (.noExports path)) ∧
        (assignments ≠ [] → ∃ exported, Collection.ofSource source path = .ok exported ∧
          TakesEffect assignments .empty exported)) := by
  refine ⟨Node.assignmentsOfAll items, Node.lists_assignmentsOfAll hloops,
    fun others hothers => (Node.lists_iff hloops).1 hothers, ?_, ?_⟩
  · intro hnone
    refine ⟨exists_first_fault hnone, fun e he => ?_⟩
    rw [Collection.ofSource_eq h, exportsOf, collect_eq_error_iff.2 he]
  · intro hgives
    constructor
    · intro hempty
      rw [Collection.ofSource_eq h, exportsOf, hempty]
      rfl
    · intro hsome
      cases hcollect : collect (Node.assignmentsOfAll items) with
      | error e =>
          obtain ⟨assignment, hmem, hnone⟩ := (collect_eq_error_iff.1 hcollect).not_gives
          exact absurd (hgives assignment hmem) hnone
      | ok found =>
          obtain ⟨after, heffect, rfl⟩ := takesEffect_of_collect hsome hcollect
          refine ⟨after, ?_, heffect⟩
          rw [Collection.ofSource_eq h, exportsOf, hcollect]

/-! ## Loops with a condition behind the body -/

/-- `{k: '…'}`, with a text of one character. -/
@[match_pattern]
def keysetNode (point : Nat) : Node := .object 1 [.property 1 (.name 1 "k") (.text 1 [point])]

/-- `exports.a = {k: '…'}` -/
@[match_pattern]
def assignmentOf (point : Nat) : Node :=
  .assign 1 (.member 1 (.name 1 "exports") "a") (keysetNode point)

/-- A loop that assigns a keyset in its body. -/
@[match_pattern]
def loopOf (test : Node) : Node :=
  .form 1 .doLoop [test, .form 1 .expressionStatement [assignmentOf 49]]

/-- A loop without an assignment in its condition. -/
def quietSource : String := "do exports.a = \x7bk: '1'\x7d; while (b)"

/-- A loop with an assignment in its condition. -/
def busySource : String := "do exports.a = \x7bk: '1'\x7d; while (exports.a = \x7bk: '2'\x7d)"

/-- Whether a source was read as the loop without an assignment in its condition. -/
def isQuiet : Except SyntaxError (List Node) → Bool
  | .ok [loopOf (.name 1 "b")] => true
  | _ => false

/-- Whether a source was read as the loop with an assignment in its condition. -/
def isBusy : Except SyntaxError (List Node) → Bool
  | .ok [loopOf (assignmentOf 50)] => true
  | _ => false

theorem eq_of_isQuiet {parsed : Except SyntaxError (List Node)} (h : isQuiet parsed) :
    parsed = .ok [loopOf (.name 1 "b")] := by
  unfold isQuiet at h
  split at h
  · rfl
  · cases h

theorem eq_of_isBusy {parsed : Except SyntaxError (List Node)} (h : isBusy parsed) :
    parsed = .ok [loopOf (assignmentOf 50)] := by
  unfold isBusy at h
  split at h
  · rfl
  · cases h

theorem parseItems_loops : isQuiet (parseItems quietSource.toList) ∧
    isBusy (parseItems busySource.toList) := by
  refine ⟨?_, ?_⟩ <;> decide +kernel

theorem parse_quietSource : parse quietSource = .ok [loopOf (.name 1 "b")] :=
  parse_eq_ok (eq_of_isQuiet parseItems_loops.1) (checkModule_of_checkAll rfl rfl rfl (by cbv))

theorem parse_busySource : parse busySource = .ok [loopOf (assignmentOf 50)] :=
  parse_eq_ok (eq_of_isBusy parseItems_loops.2) (checkModule_of_checkAll rfl rfl rfl (by cbv))

/-- The assignment that is listed. -/
def listed (point : Nat) : Assignment := ⟨.keyset "a", keysetNode point⟩

theorem exports_assignmentOf (point : Nat) : (assignmentOf point).Exports (listed point) :=
  .keyset .name (.inl ⟨1, rfl⟩)

/-- The body of a loop is walked before its condition. -/
theorem lists_loopOf {test : Node} {found : List Assignment} (h : Node.Lists [test] found) :
    Node.Lists [loopOf test] (listed 49 :: found) :=
  .parts nofun (.parts nofun (.exports (exports_assignmentOf 49) h))

theorem loopsApart_quiet : Node.LoopsApart [loopOf (.name 1 "b")] := by
  have hmet : ∀ node, Node.Met [loopOf (.name 1 "b")] node → node ∈ [loopOf (.name 1 "b"),
      .form 1 .expressionStatement [assignmentOf 49], assignmentOf 49, .name 1 "b"] := by
    intro node hnode
    induction hnode with
    | mem hmem => simp_all
    | part _ hnone hpart ih =>
        simp only [List.mem_cons, List.not_mem_nil, or_false] at ih
        rcases ih with rfl | rfl | rfl | rfl
        · simp only [Node.walked, List.mem_cons, List.not_mem_nil, or_false] at hpart
          rcases hpart with rfl | rfl <;> simp
        · simp only [Node.walked, List.mem_cons, List.not_mem_nil, or_false] at hpart
          simp [hpart]
        · exact absurd (exports_assignmentOf 49) (hnone _)
        · cases hpart
  intro line test body hloop
  have hmem := hmet _ hloop
  refine .inl ?_
  simp [loopOf, assignmentOf] at hmem
  obtain ⟨-, rfl, -⟩ := hmem
  exact .parts nofun .nil

/-- The exports with one text. -/
def exportsWith (text : String) : Collection := .ofList [("a", .ofList [("k", text)])]

theorem exports_loops : (listed 49).apply none = .ok (some (exportsWith "1")) ∧
    (listed 50).apply none = .ok (some (exportsWith "2")) ∧
    exportsOf [loopOf (assignmentOf 50)] = .ok (some (exportsWith "1")) ∧
    (exportsWith "1").get? "a" = some (.ofList [("k", "1")]) := by
  decide +kernel

theorem exists_gives_listed {point : Nat}
    (h : ∃ found, (listed point).apply none = .ok found) : ∃ given, (listed point).Gives given :=
  Assignment.exists_gives_iff.2 h

/-- A loop with assignments in its body only. -/
theorem ofSource_exports_loop :
    parse quietSource = .ok [loopOf (.name 1 "b")] ∧ Node.LoopsApart [loopOf (.name 1 "b")] ∧
      ∃ assignments exported, Node.Lists [loopOf (.name 1 "b")] assignments ∧ assignments ≠ [] ∧
        Collection.ofSource quietSource ⟨"a.i18n/en.js"⟩ = .ok exported ∧
        TakesEffect assignments .empty exported := by
  refine ⟨parse_quietSource, loopsApart_quiet, ?_⟩
  obtain ⟨assignments, hlists, -, -, hexports⟩ :=
    ofSource_exports parse_quietSource loopsApart_quiet ⟨"a.i18n/en.js"⟩
  have hlisted := hlists.unique (lists_loopOf (.parts nofun .nil))
  subst hlisted
  have hgives : ∀ assignment ∈ [listed 49], ∃ given, assignment.Gives given := by
    intro assignment hmem
    rw [List.mem_singleton.1 hmem]
    exact exists_gives_listed ⟨_, exports_loops.1⟩
  obtain ⟨exported, hsource, heffect⟩ := (hexports hgives).2 (by simp)
  exact ⟨_, exported, hlists, by simp, hsource, heffect⟩

/-- The text of the keyset that is assigned in the condition. -/
theorem get?_of_hasKeyset {keys : Keyset} (h : (keysetNode 50).HasKeyset keys) :
    keys.get? "k" = some "2" := by
  obtain ⟨entries, ⟨line, properties, hobject, hentries⟩, hkeys⟩ := h
  cases hobject
  cases hentries with
  | cons hentry hnone =>
      cases hnone
      cases hentry with
      | mk hkey hvalue =>
          cases hkey
          obtain ⟨texts, htexts, rfl⟩ := hvalue
          cases htexts with
          | cons htext hnone =>
              cases hnone
              cases htext with
              | text hwords =>
                  have htwo : ofCodePoints? [50] = some "2" := by decide
                  rw [htwo] at hwords
                  cases hwords
                  rw [hkeys.last]
                  decide

/-- **The last assignment of a file does not always win.**  The condition of a loop is written
behind the body, but an assignment in the condition takes effect before one in the body. -/
theorem ofSource_not_in_written_order :
    ∃ items assignments, parse busySource = .ok items ∧ Node.Lists items assignments ∧
      assignments ≠ [] ∧ (∀ assignment ∈ assignments, ∃ given, assignment.Gives given) ∧
      ∀ path exported, Collection.ofSource busySource path = .ok exported →
        ¬TakesEffect assignments .empty exported := by
  refine ⟨_, _, parse_busySource,
    lists_loopOf (.exports (exports_assignmentOf 50) .nil), by simp, ?_, ?_⟩
  · intro assignment hmem
    rcases List.mem_cons.1 hmem with rfl | hmem
    · exact exists_gives_listed ⟨_, exports_loops.1⟩
    · rw [List.mem_singleton.1 hmem]
      exact exists_gives_listed ⟨_, exports_loops.2.1⟩
  · intro path exported hsource heffect
    obtain ⟨-, -, hexports, hone⟩ := exports_loops
    have hloaded : Collection.ofSource busySource path = .ok (exportsWith "1") := by
      rw [Collection.ofSource_eq parse_busySource, hexports]
    rw [hloaded] at hsource
    cases hsource
    cases heffect with
    | cons _ _ hrest =>
        cases hrest with
        | cons hgives hturns hnone =>
            cases hnone
            cases hgives with
            | keyset hkeys =>
                cases hturns with
                | keyset hself _ =>
                    rw [hone] at hself
                    cases hself
                    exact absurd (get?_of_hasKeyset hkeys) (by decide)

end KeysetBundle.Script
