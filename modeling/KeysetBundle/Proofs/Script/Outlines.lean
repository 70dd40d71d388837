import Mathlib.Data.Nat.Pairing
import KeysetBundle.Proofs.Script.Exports

/-!
# Outlines of scripts

The outline of a script is what stands outside the bodies of functions, classes, getters and
setters.  What a script exports is found in its outline, as long as no getter or setter assigns to
the exports: the body of a getter is walked, that of any other function is not.

Lines matter for the places of faults only.  So two scripts with the same outline are one tree in
which every node has a line in either of them, and what they export is what the tree exports
(`ofSource_sameOutside`).

Main results.

- `assignmentsOfAll_outlineAll`: the assignments that are found in an outline.
- `exportsOf_outlineAll`: what an outline exports.
- `ofSource_sameOutside`: bodies do not matter, but for those of getters and setters.
-/

namespace KeysetBundle

namespace Script

namespace Node

/-! ## Outlines -/

mutual

/-- A node without the bodies of functions, classes, getters and setters, and with other lines. -/
def outline (f : Nat → Nat) : Node → Node
  | .name line id => .name (f line) id
  | .text line points => .text (f line) points
  | .number line n => .number (f line) n
  | .template line pieces values => .template (f line) pieces (outlineAll f values)
  | .paren line inner => .paren (f line) (outline f inner)
  | .member line owner key => .member (f line) (outline f owner) key
  | .index line owner key => .index (f line) (outline f owner) (outline f key)
  | .sum line left right => .sum (f line) (outline f left) (outline f right)
  | .assign line target value => .assign (f line) (outline f target) (outline f value)
  | .object line properties => .object (f line) (outlineAll f properties)
  | .property line key value => .property (f line) (outline f key) (outline f value)
  | .method line key code => .method (f line) (outline f key) (outline f code)
  | .accessor line key params _ => .accessor (f line) (outline f key) (outlineAll f params) []
  | .spread line comma inner => .spread (f line) comma (outline f inner)
  | .exportDefault line value => .exportDefault (f line) (outline f value)
  | .function line head params _ => .function (f line) head (outlineAll f params) []
  | .class line id parent _ => .class (f line) id (outlineAll f parent) []
  | .form line kind parts => .form (f line) kind (outlineAll f parts)

/-- The outlines of nodes. -/
def outlineAll (f : Nat → Nat) : List Node → List Node
  | [] => []
  | node :: rest => outline f node :: outlineAll f rest

end

variable {f : Nat → Nat}

theorem outlineAll_eq_map (nodes : List Node) : outlineAll f nodes = nodes.map (outline f) := by
  induction nodes with
  | nil => rw [outlineAll, List.map_nil]
  | cons node nodes ih => rw [outlineAll, List.map_cons, ih]

end Node

/-- The line in the first of two scripts. -/
def firstLine (lines : Nat) : Nat := lines.unpair.1

/-- The line in the second of two scripts. -/
def secondLine (lines : Nat) : Nat := lines.unpair.2

@[simp] theorem firstLine_pair (line line' : Nat) : firstLine (Nat.pair line line') = line := by
  simp [firstLine]

@[simp] theorem secondLine_pair (line line' : Nat) : secondLine (Nat.pair line line') = line' := by
  simp [secondLine]

/-- The outline that two trees have in common.  Each node of it has the lines of both. -/
structure IsCommon {α : Type} (outline : (Nat → Nat) → α → α) (tree tree' common : α) : Prop where
  /-- It is the outline of the first tree. -/
  first : outline firstLine common = outline id tree
  /-- It is the outline of the second tree. -/
  second : outline secondLine common = outline id tree'
  /-- It has no bodies. -/
  bare : outline id common = common

/-! ## Names in an outline -/

namespace Node

variable {f : Nat → Nat}

theorem unwrapped_outline (node : Node) :
    (node.outline f).unwrapped = node.unwrapped.outline f := by
  fun_induction unwrapped node with
  | case1 line inner ih => rw [outline, unwrapped, ih]
  | case2 node hparen =>
      cases node with
      | paren line inner => exact absurd rfl (hparen line inner)
      | _ => simp only [outline, unwrapped]

theorem memberParts?_outline (node : Node) :
    (node.outline f).memberParts? =
      node.memberParts?.map fun parts => (parts.1.outline f, parts.2) := by
  cases node with
  | index line owner key =>
      cases key with
      | text place points =>
          simp only [outline, memberParts?, Option.map_map]
          rfl
      | _ => simp only [outline, memberParts?, Option.map_none]
  | _ => simp only [outline, memberParts?, Option.map_some, Option.map_none]

theorem isNamed_outline (id : String) (node : Node) :
    (node.outline f).isNamed id = node.isNamed id := by
  cases node <;> simp only [outline, isNamed]

theorem isModuleExports_outline (node : Node) :
    (node.outline f).isModuleExports = node.isModuleExports := by
  unfold isModuleExports
  rw [memberParts?_outline]
  cases node.memberParts? with
  | none => rfl
  | some parts => simp only [Option.map_some, isNamed_outline]

theorem exportTarget?_outline (node : Node) :
    (node.outline f).exportTarget? = node.exportTarget? := by
  unfold exportTarget?
  rw [memberParts?_outline]
  cases node.memberParts? with
  | none => rfl
  | some parts => simp only [Option.map_some, isNamed_outline, isModuleExports_outline]

end Node

/-- The assignment with the outline of its value. -/
def Assignment.outline (f : Nat → Nat) (assignment : Assignment) : Assignment :=
  ⟨assignment.target, assignment.value.outline f⟩

/-- The fault at another line. -/
def Unsupported.moved (f : Nat → Nat) (fault : Unsupported) : Unsupported :=
  ⟨f fault.line, fault.reason⟩

namespace Node

variable {f : Nat → Nat}

/-! ## Values in an outline -/

theorem value_outline (node : Node) : (node.outline f).value = node.value.mapError (.moved f) := by
  fun_induction value node with
  | case1 line inner ih => rw [outline, value, ih]
  | case2 line points words hwords =>
      simp only [outline, value, hwords]
      rfl
  | case3 line points hnone =>
      simp only [outline, value, hnone]
      rfl
  | case4 line pieces words hwords =>
      simp only [outline, outlineAll, value, hwords]
      rfl
  | case5 line pieces hnone =>
      simp only [outline, outlineAll, value, hnone]
      rfl
  | case6 line pieces first rest =>
      simp only [outline, outlineAll, value]
      rfl
  | case7 line left right ihleft ihright =>
      simp only [outline, value, ihleft, ihright, mapError_bind]
      rfl
  | case8 node hparen htext hempty hfull hsum =>
      cases node with
      | paren line inner => exact absurd rfl (hparen line inner)
      | text line points => exact absurd rfl (htext line points)
      | template line pieces values =>
          cases values with
          | nil => exact absurd rfl (hempty line pieces)
          | cons first rest => exact absurd rfl (hfull line pieces first rest)
      | sum line left right => exact absurd rfl (hsum line left right)
      | _ =>
          simp only [outline, value]
          rfl

theorem properties_outline (reason : Reason) (node : Node) :
    (node.outline f).properties reason =
      ((node.properties reason).mapError (.moved f)).map (outlineAll f) := by
  unfold properties
  rw [unwrapped_outline]
  cases node.unwrapped with
  | object line items => rfl
  | _ =>
      simp only [outline]
      rfl

theorem keyName_outline (node : Node) :
    (node.outline f).keyName = node.keyName.mapError (.moved f) := by
  cases node with
  | text line points =>
      simp only [outline, keyName]
      cases Text.ofCodePoints? points <;> rfl
  | _ =>
      simp only [outline, keyName]
      rfl

theorem keyValue_outline (node : Node) :
    (node.outline f).keyValue =
      (node.keyValue.mapError (.moved f)).map fun entry => (entry.1, entry.2.outline f) := by
  cases node with
  | property line key expression =>
      simp only [outline, keyValue, keyName_outline]
      cases key.keyName <;> rfl
  | _ =>
      simp only [outline, keyValue]
      rfl

/-- The items of an outline are evaluated as those of the node if each is. -/
theorem mapM_outlineAll {α : Type} {g : Node → Except Unsupported α}
    (hg : ∀ node, g (node.outline f) = (g node).mapError (.moved f)) (items : List Node) :
    (outlineAll f items).mapM g = (items.mapM g).mapError (.moved f) := by
  rw [outlineAll_eq_map, List.mapM_map, mapError_mapM]
  congr 1
  funext item
  exact hg item

/-- The name of a property with what its expression is evaluated to. -/
theorem keyed_outline {α : Type} {g : Node → Except Unsupported α}
    (hg : ∀ node, g (node.outline f) = (g node).mapError (.moved f)) (node : Node) :
    ((node.outline f).keyValue >>= fun entry => g entry.2 >>= fun a => .ok (entry.1, a)) =
      (node.keyValue >>= fun entry => g entry.2 >>= fun a => .ok (entry.1, a)).mapError
        (.moved f) := by
  rw [keyValue_outline, mapError_bind]
  cases node.keyValue with
  | error fault => rfl
  | ok found =>
      show (g (found.2.outline f) >>= fun a => Except.ok (found.1, a)) =
        (g found.2 >>= fun a => Except.ok (found.1, a)).mapError (.moved f)
      rw [hg, mapError_bind]
      rfl

/-- What is made of the properties of an object. -/
theorem object_outline {α β : Type} {g : Node → Except Unsupported α}
    (hg : ∀ node, g (node.outline f) = (g node).mapError (.moved f)) (reason : Reason)
    (build : List α → β) (node : Node) :
    ((node.outline f).properties reason >>= fun items =>
        items.mapM g >>= fun entries => .ok (build entries)) =
      (node.properties reason >>= fun items =>
        items.mapM g >>= fun entries => .ok (build entries)).mapError (.moved f) := by
  rw [properties_outline, mapError_bind]
  cases node.properties reason with
  | error fault => rfl
  | ok items =>
      show ((outlineAll f items).mapM g >>= fun entries => Except.ok (build entries)) =
        (items.mapM g >>= fun entries => Except.ok (build entries)).mapError (.moved f)
      rw [mapM_outlineAll hg, mapError_bind]
      rfl

theorem entry_outline (node : Node) : (node.outline f).entry = node.entry.mapError (.moved f) :=
  keyed_outline value_outline node

theorem keyset_outline (node : Node) :
    (node.outline f).keyset = node.keyset.mapError (.moved f) :=
  object_outline entry_outline .notKeyset Keyset.ofList node

theorem keysetEntry_outline (node : Node) :
    (node.outline f).keysetEntry = node.keysetEntry.mapError (.moved f) :=
  keyed_outline keyset_outline node

theorem collection_outline (node : Node) :
    (node.outline f).collection = node.collection.mapError (.moved f) :=
  object_outline keysetEntry_outline .notCollection Dictionary.ofList node

end Node

variable {f : Nat → Nat}

theorem Assignment.apply_outline (exports : Option Collection) (assignment : Assignment) :
    (assignment.outline f).apply exports = (assignment.apply exports).mapError (.moved f) := by
  obtain ⟨target, value⟩ := assignment
  cases target with
  | whole =>
      simp only [apply, outline, Node.collection_outline, mapError_bind]
      rfl
  | keyset id =>
      simp only [apply, outline, Node.keyset_outline, mapError_bind]
      rfl

/-- What is collected of the outlines of assignments. -/
theorem collect_outline (assignments : List Assignment) :
    collect (assignments.map (.outline f)) = (collect assignments).mapError (.moved f) := by
  have hfold : ∀ exports, (assignments.map (.outline f)).foldlM Assignment.apply exports =
      (assignments.foldlM Assignment.apply exports).mapError (.moved f) := by
    induction assignments with
    | nil => exact fun _ => rfl
    | cons assignment rest ih =>
        intro exports
        rw [List.map_cons, List.foldlM_cons, List.foldlM_cons, Assignment.apply_outline,
          mapError_bind]
        congr 1
        funext after
        exact ih after
  exact hfold none

/-! ## Assignments in an outline -/

namespace Node

/-- No getter or setter that is met has an assignment to the exports in its body. -/
def QuietAccessors (nodes : List Node) : Prop :=
  ∀ line key params body, Met nodes (.accessor line key params body) → Lists body []

theorem QuietAccessors.mono {nodes others : List Node} (h : QuietAccessors nodes)
    (hmet : ∀ node ∈ others, Met nodes node) : QuietAccessors others :=
  fun line key params body hnode => h line key params body (hnode.mono hmet)

/-- A walk that lists nothing finds nothing. -/
theorem assignmentsOfAll_eq_nil {nodes : List Node} (h : Lists nodes []) :
    assignmentsOfAll nodes = [] := by
  generalize hfound : ([] : List Assignment) = found at h
  induction h with
  | nil => rw [assignmentsOfAll]
  | exports => cases hfound
  | @parts node rest found hnone _ ih =>
      subst hfound
      have hboth := ih rfl
      rw [assignmentsOfAll_append, List.append_eq_nil_iff] at hboth
      have hloop : ∀ line test body, node = .form line .doLoop [test, body] →
          assignments test = [] ∨ assignments body = [] := by
        rintro line test body rfl
        have hparts := hboth.1
        simp only [walked, assignmentsOfAll, List.append_eq_nil_iff] at hparts
        exact .inr hparts.1
      rw [assignmentsOfAll, assignments_of_not_exports hnone hloop, hboth.1, hboth.2,
        List.append_nil]

theorem QuietAccessors.tail {node : Node} {rest : List Node} (h : QuietAccessors (node :: rest)) :
    QuietAccessors rest :=
  h.mono fun _ hother => .mem (List.mem_cons_of_mem _ hother)

theorem QuietAccessors.head {node : Node} {rest : List Node} (h : QuietAccessors (node :: rest)) :
    QuietAccessors [node] :=
  h.mono fun _ hother => .mem (by simp [List.mem_singleton.1 hother])

/-- The parts of what is no assignment to the exports. -/
theorem QuietAccessors.parts {node : Node} (h : QuietAccessors [node])
    (hnone : node.exported? = none) {parts : List Node}
    (hparts : ∀ part ∈ parts, part ∈ node.walked) : QuietAccessors parts := by
  refine h.mono fun part hpart => .part (.mem (by simp)) ?_ (hparts part hpart)
  intro assignment hexports
  rw [exported?_eq_some_iff.2 hexports] at hnone
  cases hnone

theorem QuietAccessors.part {node : Node} (h : QuietAccessors [node])
    (hnone : node.exported? = none) {part : Node} (hpart : part ∈ node.walked) :
    QuietAccessors [part] :=
  h.parts hnone fun other hother => by rwa [List.mem_singleton.1 hother]

theorem mem_walked_form {line : Nat} {kind : Form} {parts : List Node} :
    ∀ part ∈ parts, part ∈ (form line kind parts).walked := by
  intro part hpart
  unfold walked
  split <;> simp_all [or_comm]

mutual

/-- What is found in an outline are the outlines of what is found. -/
theorem assignments_outline (node : Node) (h : QuietAccessors [node]) :
    assignments (node.outline f) = (assignments node).map (.outline f) := by
  match node with
  | .name .. | .text .. | .number .. | .function .. | .class .. =>
      simp only [outline, assignments, List.map_nil]
  | .template line pieces values =>
      have hvalues := assignmentsOfAll_outlineAll values (h.parts rfl fun _ => id)
      simp only [outline, assignments, hvalues]
  | .paren line inner =>
      have hinner := assignments_outline inner (h.part rfl (by simp [walked]))
      simp only [outline, assignments, hinner]
  | .member line owner key =>
      have howner := assignments_outline owner (h.part rfl (by simp [walked]))
      simp only [outline, assignments, howner]
  | .index line owner key =>
      have howner := assignments_outline owner (h.part rfl (by simp [walked]))
      have hkey := assignments_outline key (h.part rfl (by simp [walked]))
      simp only [outline, assignments, howner, hkey, List.map_append]
  | .sum line left right =>
      have hleft := assignments_outline left (h.part rfl (by simp [walked]))
      have hright := assignments_outline right (h.part rfl (by simp [walked]))
      simp only [outline, assignments, hleft, hright, List.map_append]
  | .assign line target value =>
      simp only [outline, assignments, exportTarget?_outline]
      cases hfound : target.exportTarget? with
      | some found => rfl
      | none =>
          have hnone : (assign line target value).exported? = none := by
            rw [exported?, hfound, Option.map_none]
          have htarget := assignments_outline target (h.part hnone (by simp [walked]))
          have hvalue := assignments_outline value (h.part hnone (by simp [walked]))
          simp only [htarget, hvalue, List.map_append]
  | .object line properties =>
      have hproperties := assignmentsOfAll_outlineAll properties (h.parts rfl fun _ => id)
      simp only [outline, assignments, hproperties]
  | .property line key value =>
      have hkey := assignments_outline key (h.part rfl (by simp [walked]))
      have hvalue := assignments_outline value (h.part rfl (by simp [walked]))
      simp only [outline, assignments, hkey, hvalue, List.map_append]
  | .method line key code =>
      have hkey := assignments_outline key (h.part rfl (by simp [walked]))
      simp only [outline, assignments, hkey]
  | .accessor line key params body =>
      have hkey := assignments_outline key (h.part rfl (by simp [walked]))
      have hparams := assignmentsOfAll_outlineAll params
        (h.parts rfl (by simp +contextual [walked]))
      have hbody := assignmentsOfAll_eq_nil (h line key params body (.mem (by simp)))
      simp only [outline, assignments, hkey, hparams, hbody, assignmentsOfAll, List.map_append,
        List.map_nil]
  | .spread line comma inner =>
      have hinner := assignments_outline inner (h.part rfl (by simp [walked]))
      simp only [outline, assignments, hinner]
  | .exportDefault line value =>
      simp only [outline, assignments]
      rfl
  | .form line kind parts =>
      have hparts := assignmentsOfAll_outlineAll parts (h.parts rfl mem_walked_form)
      simp only [outline, assignments, hparts]

/-- What is found in the outlines of nodes are the outlines of what is found. -/
theorem assignmentsOfAll_outlineAll (nodes : List Node) (h : QuietAccessors nodes) :
    assignmentsOfAll (outlineAll f nodes) = (assignmentsOfAll nodes).map (.outline f) := by
  match nodes with
  | [] => simp only [outlineAll, assignmentsOfAll, List.map_nil]
  | node :: rest =>
      have hnode := assignments_outline node h.head
      have hrest := assignmentsOfAll_outlineAll rest h.tail
      simp only [outlineAll, assignmentsOfAll, hnode, hrest, List.map_append]

end

end Node

/-- **What an outline exports** is what the items export, with the fault moved. -/
theorem exportsOf_outlineAll {items : List Node} (h : Node.QuietAccessors items) :
    exportsOf (Node.outlineAll f items) = (exportsOf items).mapError (.moved f) := by
  rw [exportsOf, Node.assignmentsOfAll_outlineAll items h, collect_outline]
  rfl

/-! ## Two scripts with one outline -/

namespace Node

mutual

/-- Nodes that differ in bodies and lines only have an outline in common. -/
theorem exists_common (node node' : Node)
    (h : node.outline (fun _ => 0) = node'.outline (fun _ => 0)) :
    ∃ common, IsCommon outline node node' common := by
  match node with
  | .name line id =>
      cases node' with
      | name line' id' =>
          simp only [outline, name.injEq, true_and] at h
          subst h
          refine ⟨.name (Nat.pair line line') id, ?_⟩
          constructor <;> simp [outline]
      | _ => simp only [outline, reduceCtorEq] at h
  | .text line points =>
      cases node' with
      | text line' points' =>
          simp only [outline, text.injEq, true_and] at h
          subst h
          refine ⟨.text (Nat.pair line line') points, ?_⟩
          constructor <;> simp [outline]
      | _ => simp only [outline, reduceCtorEq] at h
  | .number line n =>
      cases node' with
      | number line' n' =>
          simp only [outline, number.injEq, true_and] at h
          subst h
          refine ⟨.number (Nat.pair line line') n, ?_⟩
          constructor <;> simp [outline]
      | _ => simp only [outline, reduceCtorEq] at h
  | .template line pieces values =>
      cases node' with
      | template line' pieces' values' =>
          simp only [outline, template.injEq, true_and] at h
          obtain ⟨rfl, hvalues⟩ := h
          obtain ⟨common, hcommon⟩ := exists_commonAll values values' hvalues
          refine ⟨.template (Nat.pair line line') pieces common, ?_⟩
          constructor <;> simp [outline, hcommon.first, hcommon.second, hcommon.bare]
      | _ => simp only [outline, reduceCtorEq] at h
  | .paren line inner =>
      cases node' with
      | paren line' inner' =>
          simp only [outline, paren.injEq, true_and] at h
          obtain ⟨common, hcommon⟩ := exists_common inner inner' h
          refine ⟨.paren (Nat.pair line line') common, ?_⟩
          constructor <;> simp [outline, hcommon.first, hcommon.second, hcommon.bare]
      | _ => simp only [outline, reduceCtorEq] at h
  | .member line owner key =>
      cases node' with
      | member line' owner' key' =>
          simp only [outline, member.injEq, true_and] at h
          obtain ⟨howner, rfl⟩ := h
          obtain ⟨common, hcommon⟩ := exists_common owner owner' howner
          refine ⟨.member (Nat.pair line line') common key, ?_⟩
          constructor <;> simp [outline, hcommon.first, hcommon.second, hcommon.bare]
      | _ => simp only [outline, reduceCtorEq] at h
  | .index line owner key =>
      cases node' with
      | index line' owner' key' =>
          simp only [outline, index.injEq, true_and] at h
          obtain ⟨howner, hkey⟩ := h
          obtain ⟨first, hfirst⟩ := exists_common owner owner' howner
          obtain ⟨second, hsecond⟩ := exists_common key key' hkey
          refine ⟨.index (Nat.pair line line') first second, ?_⟩
          constructor <;> simp [outline, hfirst.first, hfirst.second, hfirst.bare,
            hsecond.first, hsecond.second, hsecond.bare]
      | _ => simp only [outline, reduceCtorEq] at h
  | .sum line left right =>
      cases node' with
      | sum line' left' right' =>
          simp only [outline, sum.injEq, true_and] at h
          obtain ⟨hleft, hright⟩ := h
          obtain ⟨first, hfirst⟩ := exists_common left left' hleft
          obtain ⟨second, hsecond⟩ := exists_common right right' hright
          refine ⟨.sum (Nat.pair line line') first second, ?_⟩
          constructor <;> simp [outline, hfirst.first, hfirst.second, hfirst.bare,
            hsecond.first, hsecond.second, hsecond.bare]
      | _ => simp only [outline, reduceCtorEq] at h
  | .assign line target value =>
      cases node' with
      | assign line' target' value' =>
          simp only [outline, assign.injEq, true_and] at h
          obtain ⟨htarget, hvalue⟩ := h
          obtain ⟨first, hfirst⟩ := exists_common target target' htarget
          obtain ⟨second, hsecond⟩ := exists_common value value' hvalue
          refine ⟨.assign (Nat.pair line line') first second, ?_⟩
          constructor <;> simp [outline, hfirst.first, hfirst.second, hfirst.bare,
            hsecond.first, hsecond.second, hsecond.bare]
      | _ => simp only [outline, reduceCtorEq] at h
  | .object line properties =>
      cases node' with
      | object line' properties' =>
          simp only [outline, object.injEq, true_and] at h
          obtain ⟨common, hcommon⟩ := exists_commonAll properties properties' h
          refine ⟨.object (Nat.pair line line') common, ?_⟩
          constructor <;> simp [outline, hcommon.first, hcommon.second, hcommon.bare]
      | _ => simp only [outline, reduceCtorEq] at h
  | .property line key value =>
      cases node' with
      | property line' key' value' =>
          simp only [outline, property.injEq, true_and] at h
          obtain ⟨hkey, hvalue⟩ := h
          obtain ⟨first, hfirst⟩ := exists_common key key' hkey
          obtain ⟨second, hsecond⟩ := exists_common value value' hvalue
          refine ⟨.property (Nat.pair line line') first second, ?_⟩
          constructor <;> simp [outline, hfirst.first, hfirst.second, hfirst.bare,
            hsecond.first, hsecond.second, hsecond.bare]
      | _ => simp only [outline, reduceCtorEq] at h
  | .method line key code =>
      cases node' with
      | method line' key' code' =>
          simp only [outline, method.injEq, true_and] at h
          obtain ⟨hkey, hcode⟩ := h
          obtain ⟨first, hfirst⟩ := exists_common key key' hkey
          obtain ⟨second, hsecond⟩ := exists_common code code' hcode
          refine ⟨.method (Nat.pair line line') first second, ?_⟩
          constructor <;> simp [outline, hfirst.first, hfirst.second, hfirst.bare,
            hsecond.first, hsecond.second, hsecond.bare]
      | _ => simp only [outline, reduceCtorEq] at h
  | .accessor line key params _ =>
      cases node' with
      | accessor line' key' params' _ =>
          simp only [outline, accessor.injEq, true_and, and_true] at h
          obtain ⟨hkey, hparams⟩ := h
          obtain ⟨first, hfirst⟩ := exists_common key key' hkey
          obtain ⟨second, hsecond⟩ := exists_commonAll params params' hparams
          refine ⟨.accessor (Nat.pair line line') first second [], ?_⟩
          constructor <;> simp [outline, hfirst.first, hfirst.second, hfirst.bare,
            hsecond.first, hsecond.second, hsecond.bare]
      | _ => simp only [outline, reduceCtorEq] at h
  | .spread line comma inner =>
      cases node' with
      | spread line' comma' inner' =>
          simp only [outline, spread.injEq, true_and] at h
          obtain ⟨rfl, hinner⟩ := h
          obtain ⟨common, hcommon⟩ := exists_common inner inner' hinner
          refine ⟨.spread (Nat.pair line line') comma common, ?_⟩
          constructor <;> simp [outline, hcommon.first, hcommon.second, hcommon.bare]
      | _ => simp only [outline, reduceCtorEq] at h
  | .exportDefault line value =>
      cases node' with
      | exportDefault line' value' =>
          simp only [outline, exportDefault.injEq, true_and] at h
          obtain ⟨common, hcommon⟩ := exists_common value value' h
          refine ⟨.exportDefault (Nat.pair line line') common, ?_⟩
          constructor <;> simp [outline, hcommon.first, hcommon.second, hcommon.bare]
      | _ => simp only [outline, reduceCtorEq] at h
  | .function line head params _ =>
      cases node' with
      | function line' head' params' _ =>
          simp only [outline, function.injEq, true_and, and_true] at h
          obtain ⟨rfl, hparams⟩ := h
          obtain ⟨common, hcommon⟩ := exists_commonAll params params' hparams
          refine ⟨.function (Nat.pair line line') head common [], ?_⟩
          constructor <;> simp [outline, hcommon.first, hcommon.second, hcommon.bare]
      | _ => simp only [outline, reduceCtorEq] at h
  | .class line id parent _ =>
      cases node' with
      | «class» line' id' parent' _ =>
          simp only [outline, «class».injEq, true_and, and_true] at h
          obtain ⟨rfl, hparent⟩ := h
          obtain ⟨common, hcommon⟩ := exists_commonAll parent parent' hparent
          refine ⟨.class (Nat.pair line line') id common [], ?_⟩
          constructor <;> simp [outline, hcommon.first, hcommon.second, hcommon.bare]
      | _ => simp only [outline, reduceCtorEq] at h
  | .form line kind parts =>
      cases node' with
      | form line' kind' parts' =>
          simp only [outline, form.injEq, true_and] at h
          obtain ⟨rfl, hparts⟩ := h
          obtain ⟨common, hcommon⟩ := exists_commonAll parts parts' hparts
          refine ⟨.form (Nat.pair line line') kind common, ?_⟩
          constructor <;> simp [outline, hcommon.first, hcommon.second, hcommon.bare]
      | _ => simp only [outline, reduceCtorEq] at h

/-- Lists of nodes that differ in bodies and lines only have an outline in common. -/
theorem exists_commonAll (nodes nodes' : List Node)
    (h : outlineAll (fun _ => 0) nodes = outlineAll (fun _ => 0) nodes') :
    ∃ common, IsCommon outlineAll nodes nodes' common := by
  match nodes with
  | [] =>
      cases nodes' with
      | nil =>
          refine ⟨[], ?_⟩
          constructor <;> simp [outlineAll]
      | cons node' rest' => simp only [outlineAll, reduceCtorEq] at h
  | node :: rest =>
      cases nodes' with
      | nil => simp only [outlineAll, reduceCtorEq] at h
      | cons node' rest' =>
          simp only [outlineAll, List.cons.injEq] at h
          obtain ⟨first, hfirst⟩ := exists_common node node' h.1
          obtain ⟨others, hothers⟩ := exists_commonAll rest rest' h.2
          refine ⟨first :: others, ?_⟩
          constructor <;> simp [outlineAll, hfirst.first, hfirst.second, hfirst.bare,
            hothers.first, hothers.second, hothers.bare]

end

/-- What is walked in an outline are outlines. -/
theorem mem_walked_outline {f : Nat → Nat} {node part : Node}
    (h : part ∈ (node.outline f).walked) : ∃ whole : Node, part = whole.outline f := by
  have hlist : ∀ {parts : List Node}, part ∈ outlineAll f parts →
      ∃ whole : Node, part = whole.outline f := by
    intro parts hpart
    rw [outlineAll_eq_map] at hpart
    obtain ⟨whole, -, rfl⟩ := List.mem_map.1 hpart
    exact ⟨whole, rfl⟩
  cases node with
  | template line pieces values => exact hlist h
  | object line properties => exact hlist h
  | accessor line key params body =>
      simp only [outline, walked, List.append_nil, List.mem_cons] at h
      rcases h with rfl | h
      · exact ⟨key, rfl⟩
      · exact hlist h
  | form line kind parts =>
      have hparts : part ∈ outlineAll f parts := by
        simp only [outline, walked] at h
        split at h <;> simp_all [or_comm]
      exact hlist hparts
  | name | text | number | function | «class» => cases h
  | paren line inner => exact ⟨inner, List.mem_singleton.1 h⟩
  | member line owner key => exact ⟨owner, List.mem_singleton.1 h⟩
  | method line key code => exact ⟨key, List.mem_singleton.1 h⟩
  | spread line comma inner => exact ⟨inner, List.mem_singleton.1 h⟩
  | exportDefault line value => exact ⟨value, List.mem_singleton.1 h⟩
  | index line first second | sum line first second | assign line first second
  | property line first second =>
      have hpart : part ∈ [first.outline f, second.outline f] := h
      rcases List.mem_cons.1 hpart with hfirst | hsecond
      · exact ⟨first, hfirst⟩
      · exact ⟨second, List.mem_singleton.1 hsecond⟩

/-- In an outline no getter or setter has a body. -/
theorem quietAccessors_outlineAll (f : Nat → Nat) (nodes : List Node) :
    QuietAccessors (outlineAll f nodes) := by
  intro line key params body hmet
  have hwhole : ∀ node, Met (outlineAll f nodes) node → ∃ whole : Node, node = whole.outline f := by
    intro node hnode
    induction hnode with
    | mem hmem =>
        rw [outlineAll_eq_map] at hmem
        obtain ⟨whole, -, rfl⟩ := List.mem_map.1 hmem
        exact ⟨whole, rfl⟩
    | part _ _ hpart ih =>
        obtain ⟨whole, rfl⟩ := ih
        exact mem_walked_outline hpart
  obtain ⟨whole, hnode⟩ := hwhole _ hmet
  cases whole with
  | accessor =>
      simp only [outline, accessor.injEq] at hnode
      rw [hnode.2.2.2]
      exact .nil
  | _ => simp only [outline, reduceCtorEq] at hnode

/-- Two scripts are the same outside the bodies of functions, classes, getters and setters. -/
def SameOutside (items items' : List Node) : Prop :=
  outlineAll (fun _ => 0) items = outlineAll (fun _ => 0) items'

end Node

/-- Two keyset files give the same answer, up to the lines of faults: that of the outline that they
have in common. -/
inductive SameAnswer (path : Path) (common : List Node) :
    Except LoadError Collection → Except LoadError Collection → Prop
  /-- The same collection. -/
  | collection {found : Collection} (h : exportsOf common = .ok (some found)) :
    SameAnswer path common (.ok found) (.ok found)
  /-- Nothing is exported. -/
  | noExports (h : exportsOf common = .ok none) :
    SameAnswer path common (.error (.noExports path)) (.error (.noExports path))
  /-- The same fault at the same node, which has a line in either file. -/
  | unsupported {fault : Unsupported} (h : exportsOf common = .error fault) :
    SameAnswer path common (.error (.unsupported path (fault.moved firstLine)))
      (.error (.unsupported path (fault.moved secondLine)))

/-- The exports of a file whose outline has other lines in a tree. -/
theorem exportsOf_of_outline {f : Nat → Nat} {items common : List Node}
    (h : Node.outlineAll f common = Node.outlineAll id items)
    (hbare : Node.outlineAll id common = common) (hquiet : Node.QuietAccessors items) :
    exportsOf items = (exportsOf common).mapError (.moved f) := by
  have hcommon : Node.QuietAccessors common := hbare ▸ Node.quietAccessors_outlineAll id common
  have hsame : (exportsOf items).mapError (.moved id) = exportsOf items := by
    cases exportsOf items <;> rfl
  rw [← exportsOf_outlineAll hcommon, h, exportsOf_outlineAll hquiet, hsame]

/-- **Bodies do not matter.**  Two keyset files that are the same outside the bodies of functions,
classes, getters and setters give the same answer, if no getter or setter assigns to the exports. -/
theorem ofSource_sameOutside {source source' : String} {items items' : List Node}
    (hparse : parse source = .ok items) (hparse' : parse source' = .ok items')
    (hsame : Node.SameOutside items items') (hquiet : Node.QuietAccessors items)
    (hquiet' : Node.QuietAccessors items') (path : Path) :
    ∃ common, IsCommon Node.outlineAll items items' common ∧
      SameAnswer path common (Collection.ofSource source path)
        (Collection.ofSource source' path) := by
  obtain ⟨common, hcommon⟩ := Node.exists_commonAll items items' hsame
  refine ⟨common, hcommon, ?_⟩
  rw [Collection.ofSource_eq hparse, Collection.ofSource_eq hparse',
    exportsOf_of_outline hcommon.first hcommon.bare hquiet,
    exportsOf_of_outline hcommon.second hcommon.bare hquiet']
  cases hfound : exportsOf common with
  | error fault => exact .unsupported hfound
  | ok found =>
      cases found with
      | none => exact .noExports hfound
      | some collection => exact .collection hfound

/-! ## A function in front of a fault -/

/-- A function without parameters. -/
@[match_pattern]
def functionNode (body : List Node) : Node :=
  .function 1 ⟨.declaration, false, false, some "f"⟩ [] body

/-- `exports.k = x`, which is no keyset. -/
@[match_pattern]
def faultyNode (line : Nat) : Node :=
  .form line .expressionStatement
    [.assign line (.member line (.name line "exports") "k") (.name line "x")]

/-- `exports.k = \x7b\x7d;` -/
@[match_pattern]
def assignmentNode : Node :=
  .form 1 .expressionStatement
    [.assign 1 (.member 1 (.name 1 "exports") "k") (.object 1 [])]

/-- An empty body on two lines. -/
def emptyBodySource : String := "function f() \x7b\n\x7d\nexports.k = x"

/-- A body on one line that assigns to the exports. -/
def filledBodySource : String := "function f() \x7b exports.k = \x7b\x7d; \x7d\nexports.k = x"

/-- Whether a source was read as the one with an empty body. -/
def isEmptyBody : Except SyntaxError (List Node) → Bool
  | .ok [functionNode [], faultyNode 3] => true
  | _ => false

/-- Whether a source was read as the one with an assignment in the body. -/
def isFilledBody : Except SyntaxError (List Node) → Bool
  | .ok [functionNode [assignmentNode], faultyNode 2] => true
  | _ => false

theorem eq_of_isEmptyBody {parsed : Except SyntaxError (List Node)} (h : isEmptyBody parsed) :
    parsed = .ok [functionNode [], faultyNode 3] := by
  unfold isEmptyBody at h
  split at h
  · rfl
  · cases h

theorem eq_of_isFilledBody {parsed : Except SyntaxError (List Node)} (h : isFilledBody parsed) :
    parsed = .ok [functionNode [assignmentNode], faultyNode 2] := by
  unfold isFilledBody at h
  split at h
  · rfl
  · cases h

theorem parseItems_bodies : isEmptyBody (parseItems emptyBodySource.toList) ∧
    isFilledBody (parseItems filledBodySource.toList) := by
  refine ⟨?_, ?_⟩ <;> decide +kernel

theorem parse_emptyBodySource : parse emptyBodySource = .ok [functionNode [], faultyNode 3] :=
  parse_eq_ok (eq_of_isEmptyBody parseItems_bodies.1)
    (checkModule_of_checkAll rfl rfl rfl (by cbv))

theorem parse_filledBodySource :
    parse filledBodySource = .ok [functionNode [assignmentNode], faultyNode 2] :=
  parse_eq_ok (eq_of_isFilledBody parseItems_bodies.2)
    (checkModule_of_checkAll rfl rfl rfl (by cbv))

/-- No getter or setter is met where a function is declared and something is assigned. -/
theorem quietAccessors_bodies (body : List Node) (line : Nat) :
    Node.QuietAccessors [functionNode body, faultyNode line] := by
  have hmet : ∀ node, Node.Met [functionNode body, faultyNode line] node →
      node = functionNode body ∨ node = faultyNode line ∨
        ∃ assignment, node.Exports assignment := by
    intro node hnode
    induction hnode with
    | mem hmem =>
        rw [List.mem_cons, List.mem_singleton] at hmem
        exact hmem.imp_right .inl
    | part _ hnone hpart ih =>
        rcases ih with rfl | rfl | ⟨assignment, hexports⟩
        · cases hpart
        · rw [List.mem_singleton.1 hpart]
          exact .inr (.inr ⟨_, .keyset .name (.inl ⟨line, rfl⟩)⟩)
        · exact absurd hexports (hnone assignment)
  intro line key params body hnode
  rcases hmet _ hnode with h | h | ⟨assignment, hexports⟩
  · cases h
  · cases h
  · cases hexports

/-- The fault behind a function is found whatever the body is. -/
theorem ofSource_sameOutside_function :
    ∃ common, IsCommon Node.outlineAll [functionNode [], faultyNode 3]
        [functionNode [assignmentNode], faultyNode 2] common ∧
      SameAnswer ⟨"a.i18n/en.js"⟩ common
        (.error (.unsupported ⟨"a.i18n/en.js"⟩ ⟨3, .notKeyset⟩))
        (.error (.unsupported ⟨"a.i18n/en.js"⟩ ⟨2, .notKeyset⟩)) := by
  have hfirst : Collection.ofSource emptyBodySource ⟨"a.i18n/en.js"⟩ =
      .error (.unsupported ⟨"a.i18n/en.js"⟩ ⟨3, .notKeyset⟩) := by
    rw [Collection.ofSource_eq parse_emptyBodySource]
    rfl
  have hsecond : Collection.ofSource filledBodySource ⟨"a.i18n/en.js"⟩ =
      .error (.unsupported ⟨"a.i18n/en.js"⟩ ⟨2, .notKeyset⟩) := by
    rw [Collection.ofSource_eq parse_filledBodySource]
    rfl
  rw [← hfirst, ← hsecond]
  exact ofSource_sameOutside parse_emptyBodySource parse_filledBodySource rfl
    (quietAccessors_bodies _ _) (quietAccessors_bodies _ _) _

/-! ## Getters -/

/-- An object with a getter. -/
@[match_pattern]
def getterNode (body : List Node) : Node :=
  .form 1 .expressionStatement
    [.paren 1 (.object 1 [.accessor 1 (.name 1 "x") [] body])]

/-- A getter that assigns to the exports. -/
def getterSource : String := "(\x7b get x() \x7b exports.a = \x7bk: '1'\x7d \x7d \x7d)"

/-- A getter without a body. -/
def bareGetterSource : String := "(\x7b get x() \x7b \x7d \x7d)"

/-- Whether a source was read as the getter that assigns to the exports. -/
def isGetter : Except SyntaxError (List Node) → Bool
  | .ok [getterNode [.form 1 .expressionStatement [assignmentOf 49]]] => true
  | _ => false

/-- Whether a source was read as the getter without a body. -/
def isBareGetter : Except SyntaxError (List Node) → Bool
  | .ok [getterNode []] => true
  | _ => false

theorem eq_of_isGetter {parsed : Except SyntaxError (List Node)} (h : isGetter parsed) :
    parsed = .ok [getterNode [.form 1 .expressionStatement [assignmentOf 49]]] := by
  unfold isGetter at h
  split at h
  · rfl
  · cases h

theorem eq_of_isBareGetter {parsed : Except SyntaxError (List Node)} (h : isBareGetter parsed) :
    parsed = .ok [getterNode []] := by
  unfold isBareGetter at h
  split at h
  · rfl
  · cases h

theorem parseItems_getters : isGetter (parseItems getterSource.toList) ∧
    isBareGetter (parseItems bareGetterSource.toList) := by
  refine ⟨?_, ?_⟩ <;> decide +kernel

theorem parse_getterSource : parse getterSource =
    .ok [getterNode [.form 1 .expressionStatement [assignmentOf 49]]] :=
  parse_eq_ok (eq_of_isGetter parseItems_getters.1) (checkModule_of_checkAll rfl rfl rfl (by cbv))

theorem parse_bareGetterSource : parse bareGetterSource = .ok [getterNode []] :=
  parse_eq_ok (eq_of_isBareGetter parseItems_getters.2)
    (checkModule_of_checkAll rfl rfl rfl (by cbv))

/-- **The body of a getter can define the exports.**  Without it the file exports nothing. -/
theorem not_ofSource_sameOutside :
    ∃ items items', parse getterSource = .ok items ∧ parse bareGetterSource = .ok items' ∧
      Node.SameOutside items items' ∧ ∀ path,
        Collection.ofSource getterSource path = .ok (exportsWith "1") ∧
        Collection.ofSource bareGetterSource path = .error (.noExports path) := by
  refine ⟨_, _, parse_getterSource, parse_bareGetterSource, rfl, fun path => ⟨?_, ?_⟩⟩
  · have hexports : exportsOf [getterNode [.form 1 .expressionStatement [assignmentOf 49]]] =
        .ok (some (exportsWith "1")) := by decide +kernel
    rw [Collection.ofSource_eq parse_getterSource, hexports]
  · rw [Collection.ofSource_eq parse_bareGetterSource]
    rfl

end Script

end KeysetBundle
