import Mathlib.Data.List.DropRight
import Mathlib.Data.List.Nodup
import Settlement.Memory.Categories
import Settlement.Proofs.Results

/-!
Private categories made one after the other. Main statement: the global categories and a user's own are
what the user is shown, in the order of their ids, and what the user may put on a transaction.
-/

namespace Settlement

theorem trimBlanks_eq (cs : List Char) : trimBlanks cs = (cs.dropWhile isBlank).rdropWhile isBlank := rfl

/-- A trimmed text has nothing to trim. -/
theorem trimBlanks_trimBlanks (cs : List Char) : trimBlanks (trimBlanks cs) = trimBlanks cs := by
  have hfront : (trimBlanks cs).dropWhile isBlank = trimBlanks cs := by
    rw [List.dropWhile_eq_self_iff]
    intro hpos hblank
    -- The first character is the first one of the text without the blanks in front.
    obtain ⟨rest, hrest⟩ : trimBlanks cs <+: cs.dropWhile isBlank :=
      trimBlanks_eq cs ▸ List.rdropWhile_prefix isBlank _
    have hhead := List.head?_dropWhile_not isBlank cs
    rw [← hrest, List.head?_append, List.head?_eq_getElem?, List.getElem?_eq_getElem hpos] at hhead
    simp [hblank] at hhead
  rw [trimBlanks_eq (trimBlanks cs), hfront, trimBlanks_eq, List.rdropWhile_idempotent]

def trimmed (text : String) : String := String.ofList (trimBlanks text.toList)

theorem trimmed_trimmed (text : String) : trimmed (trimmed text) = trimmed text := by
  rw [trimmed, trimmed, String.toList_ofList, trimBlanks_trimBlanks]

structure CategoryRequest where
  name : String
  user : UserId

namespace CategoryTable

def act : (call : Call) → CategoryTable → Flow.Outcome call.Answer × CategoryTable
  | .categories call, t => answer call t
  | _, t => (.panic "Unreachable", t)

section

variable {t : CategoryTable} {user : UserId} {name : String}

theorem insert_taken {c : Category} (hc : c ∈ t.rows) (hu : c.owner = some user) (hn : c.name = name) :
    t.insert user name = (none, t) := by
  unfold insert
  rw [if_pos]
  simp only [List.any_eq_true]
  exact ⟨c, hc, by simp [hu, hn]⟩

theorem insert_fresh (h : ∀ c ∈ t.rows, c.owner = some user → c.name ≠ name) :
    t.insert user name =
      (some ⟨t.nextId, some user, name⟩, ⟨t.rows ++ [⟨t.nextId, some user, name⟩]⟩) := by
  unfold insert
  rw [if_neg]
  simpa using h

end
end CategoryTable

namespace CategoryRequest

open Fallible Reports

def run (x : CategoryRequest) (t : CategoryTable) :
    Flow.Outcome (Except ServiceError Category) × CategoryTable :=
  let result := (Service.createCategory x.name x.user).run.run CategoryTable.act t
  (result.1, result.2.2)

def category (x : CategoryRequest) (t : CategoryTable) : Category :=
  ⟨t.nextId, some x.user, trimmed x.name⟩

/-- What may come of a request: it is refused and changes nothing, or one more category is there. -/
inductive Way (x : CategoryRequest) (t : CategoryTable) :
    Flow.Outcome (Except ServiceError Category) → CategoryTable → Prop
  | nameless (blank : trimmed x.name = "") :
      Way x t (.value (.error (.badRequest "Category name is required"))) t
  | taken {c : Category} (named : trimmed x.name ≠ "") (mem : c ∈ t.rows)
      (own : c.owner = some x.user) (name : c.name = trimmed x.name) :
      Way x t (.value (.error (.badRequest "Category already exists"))) t
  | granted (named : trimmed x.name ≠ "")
      (fresh : ∀ c ∈ t.rows, c.owner = some x.user → c.name ≠ trimmed x.name) :
      Way x t (.value (.ok (x.category t))) ⟨t.rows ++ [x.category t]⟩

section

variable {x : CategoryRequest} {t : CategoryTable}

theorem insertCategory_reports {user : UserId} {name : String}
    {ok : Option Category → CategoryTable → Prop} {err : ServiceError → CategoryTable → Prop}
    {broke : CategoryTable → Prop} (h : ok (t.insert user name).1 (t.insert user name).2) :
    Reports (Flow.answering CategoryTable.act) (Program.insertCategory user name) ok err broke t :=
  ⟨_, _, rfl, h⟩

theorem createCategory_reports : Reports (Flow.answering CategoryTable.act)
    (Service.createCategory x.name x.user) (fun c t' => x.Way t (.value (.ok c)) t')
    (fun e t' => x.Way t (.value (.error e)) t') (fun _ => False) t := by
  have hname : String.ofList (trimBlanks x.name.toList) = trimmed x.name := rfl
  unfold Service.createCategory
  dsimp only
  rw [hname]
  by_cases hblank : trimmed x.name = ""
  · rw [if_pos hblank]
    exact .nameless hblank
  · rw [if_neg hblank, of_bind]
    apply insertCategory_reports
    by_cases hfresh : ∀ c ∈ t.rows, c.owner = some x.user → c.name ≠ trimmed x.name
    · rw [CategoryTable.insert_fresh hfresh]
      exact .granted hblank hfresh
    · simp only [not_forall, not_not] at hfresh
      obtain ⟨c, hc, hu, hn⟩ := hfresh
      rw [CategoryTable.insert_taken hc hu hn]
      exact .taken hblank hc hu hn

end

theorem way (x : CategoryRequest) (t : CategoryTable) : x.Way t (x.run t).1 (x.run t).2 := by
  obtain ⟨outcome, events, t', hrun, hway⟩ := Flow.Tells.run (createCategory_reports (x := x) (t := t))
  unfold run
  rw [hrun]
  rcases outcome with (e | c) | message
  · exact hway
  · exact hway
  · exact hway.elim

/-- A request that is refused changes nothing. -/
theorem Way.unchanged {x : CategoryRequest} {t t' : CategoryTable} {e : ServiceError}
    (h : x.Way t (.value (.error e)) t') : t' = t := by
  cases h <;> rfl

def made? : Flow.Outcome (Except ServiceError Category) → Option Category
  | .value (.ok c) => some c
  | _ => none

end CategoryRequest

namespace CategoryTable

def after : CategoryTable → List CategoryRequest → CategoryTable
  | t, [] => t
  | t, x :: xs => after (x.run t).2 xs

def made : CategoryTable → List CategoryRequest → List Category
  | _, [] => []
  | t, x :: xs => (CategoryRequest.made? (x.run t).1).toList ++ made (x.run t).2 xs

/-- The global categories are followed by those that were made. The ids count from one, and no user has
two names that differ in blanks around them only. -/
structure Registers (t : CategoryTable) (cs : List Category) : Prop where
  rows : t.rows = defaults.rows ++ cs
  numbered : t.rows.map (·.id) = (List.range t.rows.length).map fun (n : Nat) => (n : Int) + 1
  owned : ∀ c ∈ cs, c.owner ≠ none
  named : ∀ c ∈ cs, trimmed c.name = c.name
  distinct : (cs.map fun c => (c.owner, trimmed c.name)).Nodup

theorem defaults_global : ∀ c ∈ defaults.rows, c.owner = none := by decide

theorem registers_defaults : defaults.Registers [] := by
  exact ⟨by simp, by decide, by simp, by simp, by simp⟩

theorem foldl_max_range (n : Nat) :
    ((List.range n).map fun (k : Nat) => (k : Int) + 2).foldl max 1 = n + 1 := by
  induction n with
  | zero => rfl
  | succ n ih =>
    rw [List.range_succ, List.map_append, List.foldl_append, ih]
    simp
    omega

section

variable {t t' : CategoryTable} {cs : List Category} {x : CategoryRequest} {id : CategoryId}
  {user : UserId} {c : Category} {type : OperationType}

theorem Registers.nextId (h : t.Registers cs) : t.nextId = t.rows.length + 1 := by
  unfold CategoryTable.nextId
  rw [h.numbered]
  cases t.rows.length with
  | zero => rfl
  | succ n =>
    rw [List.range_succ_eq_map, List.map_cons, List.map_map]
    have hfrom : ((fun k : Nat => (k : Int) + 1) ∘ Nat.succ) = fun k : Nat => (k : Int) + 2 := by
      funext k
      simp
      omega
    rw [hfrom]
    simpa using foldl_max_range n

theorem Registers.unique (h : t.Registers cs) : (t.rows.map (·.id)).Nodup := by
  rw [h.numbered]
  refine List.Nodup.map ?_ List.nodup_range
  intro m n (hmn : (m : Int) + 1 = n + 1)
  omega

theorem Registers.step {outcome : Flow.Outcome (Except ServiceError Category)} (h : t.Registers cs)
    (hway : x.Way t outcome t') : t'.Registers (cs ++ (CategoryRequest.made? outcome).toList) := by
  cases hway with
  | nameless | taken => simpa [CategoryRequest.made?] using h
  | granted _ hfresh =>
    refine ⟨?_, ?_, ?_, ?_, ?_⟩
    · simp [h.rows, CategoryRequest.made?]
    · rw [List.map_append, List.length_append, List.length_singleton, List.range_succ, List.map_append,
        h.numbered]
      simp [CategoryRequest.category, h.nextId]
    · intro c hc
      rcases List.mem_append.mp hc with hc | hc
      · exact h.owned c hc
      · obtain rfl := List.mem_singleton.mp hc
        simp [CategoryRequest.category]
    · intro c hc
      rcases List.mem_append.mp hc with hc | hc
      · exact h.named c hc
      · obtain rfl := List.mem_singleton.mp hc
        exact trimmed_trimmed x.name
    · have hnew : ∀ c ∈ cs, ¬(c.owner = some x.user ∧ trimmed c.name = trimmed (trimmed x.name)) := by
        rintro c hc ⟨hu, hn⟩
        rw [h.named c hc, trimmed_trimmed] at hn
        exact hfresh c (by simp [h.rows, hc]) hu hn
      simp only [CategoryRequest.made?, Option.toList_some, List.map_append, List.map_singleton,
        CategoryRequest.category]
      rw [List.nodup_append]
      refine ⟨h.distinct, by simp, ?_⟩
      intro a ha b hb
      obtain ⟨c, hc, rfl⟩ := List.mem_map.mp ha
      obtain rfl := List.mem_singleton.mp hb
      simpa using hnew c hc

/-- Requests leave the order as it is, and what they make comes last. -/
theorem Registers.after (h : t.Registers cs) (xs : List CategoryRequest) :
    (t.after xs).Registers (cs ++ t.made xs) := by
  induction xs generalizing t cs with
  | nil => simpa [CategoryTable.after, made] using h
  | cons x xs ih =>
    have hx := ih (h.step (x.way t))
    rw [List.append_assoc] at hx
    exact hx

theorem Registers.row?_eq_some (h : t.Registers cs) : t.row? id = some c ↔ c ∈ t.rows ∧ c.id = id := by
  unfold row?
  constructor
  · intro hf
    exact ⟨List.mem_of_find?_eq_some hf, by simpa using List.find?_some hf⟩
  · rintro ⟨hc, rfl⟩
    cases hf : t.rows.find? (·.id == c.id) with
    | none => simpa using List.find?_eq_none.mp hf c hc
    | some found =>
      have hid : found.id = c.id := by simpa using List.find?_some hf
      rw [List.inj_on_of_nodup_map h.unique (List.mem_of_find?_eq_some hf) hc hid]

theorem row?_eq_none : t.row? id = none ↔ ∀ c ∈ t.rows, c.id ≠ id := by
  simp [row?]

theorem usableBy_iff : c.usableBy user ↔ c.owner = none ∨ c.owner = some user := by
  unfold Category.usableBy
  cases c.owner <;> simp

/-- A user is shown the global categories and their own. -/
theorem Registers.listForUser (h : t.Registers cs) :
    t.listForUser user = defaults.rows ++ cs.filter (·.owner = some user) := by
  unfold CategoryTable.listForUser
  rw [h.rows, List.filter_append]
  have hglobal : defaults.rows.filter (·.usableBy user) = defaults.rows := by
    rw [List.filter_eq_self]
    intro c hc
    rw [usableBy_iff]
    exact .inl (defaults_global c hc)
  have hprivate : cs.filter (·.usableBy user) = cs.filter (·.owner = some user) := by
    apply List.filter_congr
    intro c hc
    rw [Bool.eq_iff_iff, usableBy_iff, decide_eq_true_iff, or_iff_right (h.owned c hc)]
  rw [hglobal, hprivate]

/-- What a user is told who wants to put a category on a transaction. -/
def entitlement (t : CategoryTable) (id : CategoryId) (user : UserId) :
    Except ServiceError (Option Category) :=
  match t.row? id with
  | none => .error (.badRequest ("Category not found with id: " ++ Digits.intText id))
  | some c => if c.usableBy user then .ok (some c) else .error (.forbidden "You cannot use this category")

theorem Registers.entitlement_ok (h : t.Registers cs) {found : Option Category} :
    t.entitlement id user = .ok found ↔ ∃ c ∈ t.listForUser user, c.id = id ∧ found = some c := by
  simp only [CategoryTable.listForUser, List.mem_filter]
  constructor
  · intro hok
    unfold entitlement at hok
    split at hok
    next => contradiction
    next c hrow =>
      obtain ⟨hc, hid⟩ := h.row?_eq_some.mp hrow
      split at hok
      next hu => exact ⟨c, ⟨hc, hu⟩, hid, (Except.ok.inj hok).symm⟩
      next => contradiction
  · rintro ⟨c, ⟨hc, hu⟩, hid, rfl⟩
    simp only [entitlement, h.row?_eq_some.mpr ⟨hc, hid⟩, hu, if_true]

theorem Registers.entitlement_forbidden (h : t.Registers cs) {text : String} :
    t.entitlement id user = .error (.forbidden text) ↔
      text = "You cannot use this category" ∧
        ∃ c ∈ t.rows, c.id = id ∧ ∃ owner, c.owner = some owner ∧ owner ≠ user := by
  have husable {c : Category} : ¬c.usableBy user ↔ ∃ owner, c.owner = some owner ∧ owner ≠ user := by
    rw [usableBy_iff]
    cases c.owner <;> simp
  constructor
  · intro herr
    unfold entitlement at herr
    split at herr
    next => simp at herr
    next c hrow =>
      obtain ⟨hc, hid⟩ := h.row?_eq_some.mp hrow
      split at herr
      next => contradiction
      next hu =>
        simp only [Except.error.injEq, ServiceError.forbidden.injEq] at herr
        exact ⟨herr.symm, c, hc, hid, husable.mp hu⟩
  · rintro ⟨rfl, c, hc, hid, hother⟩
    simp only [entitlement, h.row?_eq_some.mpr ⟨hc, hid⟩, if_neg (husable.mpr hother)]

theorem entitlement_badRequest {text : String} :
    t.entitlement id user = .error (.badRequest text) ↔
      text = "Category not found with id: " ++ Digits.intText id ∧ ∀ c ∈ t.rows, c.id ≠ id := by
  rw [← row?_eq_none]
  unfold entitlement
  cases t.row? id with
  | none => simp [eq_comm]
  | some c => by_cases hu : c.usableBy user <;> simp [hu]

theorem findCategory_comes : (Program.findCategory id).run.Comes act t (.ok (t.row? id)) t :=
  .ask rfl (Flow.comes_done _)

theorem resolveCategory_comes (ht : type ≠ .deposit) :
    (Service.resolveCategory (some id) user type).run.Comes act t (t.entitlement id user) t := by
  unfold Service.resolveCategory entitlement
  rw [if_neg ht]
  refine Fallible.comes_bind findCategory_comes ?_
  cases t.row? id with
  | none => exact Flow.comes_done _
  | some c =>
    cases hu : c.usableBy user with
    | true =>
      simp only [hu]
      exact Flow.comes_done _
    | false =>
      simp only [hu]
      exact .note (Flow.comes_done _)

end

/-- Whatever private categories were asked for, the ids count from one and no user has two categories of
one name; a user is shown the global categories and then their own; and they may use just what they are
shown: what is another's is forbidden, and what nobody has is not found. -/
theorem entitled_iff_shown (xs : List CategoryRequest) (user : UserId) (id : CategoryId)
    {type : OperationType} (ht : type ≠ .deposit) :
    let t := defaults.after xs
    let cs := defaults.made xs
    (t.Registers cs ∧ defaults.rows.map (·.id) = [1, 2, 3, 4, 5, 6, 7] ∧ (t.rows.map (·.id)).Nodup) ∧
    (∀ x : CategoryRequest, x.Way t (x.run t).1 (x.run t).2 ∧
      ∀ e, (x.run t).1 = .value (.error e) → (x.run t).2 = t) ∧
    ∃ shown result,
      (Program.listCategories user).run.Comes act t (.ok shown) t ∧
      shown = defaults.rows ++ cs.filter (·.owner = some user) ∧
      (Service.resolveCategory (some id) user type).run.Comes act t result t ∧
      (∀ found, result = .ok found ↔ ∃ c ∈ shown, c.id = id ∧ found = some c) ∧
      (∀ text, result = .error (.forbidden text) ↔ text = "You cannot use this category" ∧
        ∃ c ∈ t.rows, c.id = id ∧ ∃ owner, c.owner = some owner ∧ owner ≠ user) ∧
      ∀ text, result = .error (.badRequest text) ↔
        text = "Category not found with id: " ++ Digits.intText id ∧ ∀ c ∈ t.rows, c.id ≠ id := by
  intro t cs
  have ht' : t.Registers cs := registers_defaults.after xs
  refine ⟨⟨ht', by decide, ht'.unique⟩, ?_, t.listForUser user, t.entitlement id user, ?_⟩
  · intro x
    refine ⟨x.way t, ?_⟩
    intro e he
    have hway := x.way t
    rw [he] at hway
    exact hway.unchanged
  · refine ⟨.ask rfl (Flow.comes_done _), ht'.listForUser, resolveCategory_comes ht, ?_, ?_, ?_⟩
    · intro found
      exact ht'.entitlement_ok
    · intro text
      exact ht'.entitlement_forbidden
    · intro text
      exact entitlement_badRequest

/-- A user makes "Gifts" and is refused it again and a nameless one; another makes "Gifts" too, and it is
theirs alone. -/
theorem entitled_iff_shown_gifts :
    let xs : List CategoryRequest := [⟨" Gifts ", 42⟩, ⟨"Gifts", 42⟩, ⟨"Gifts", 43⟩, ⟨"   ", 42⟩]
    defaults.made xs = [⟨8, some 42, "Gifts"⟩, ⟨9, some 43, "Gifts"⟩] ∧
    (defaults.after xs).rows.map (·.id) = [1, 2, 3, 4, 5, 6, 7, 8, 9] ∧
    (Service.resolveCategory (some 9) 42 .transfer).run.Comes act (defaults.after xs)
      (.error (.forbidden "You cannot use this category")) (defaults.after xs) := by
  intro xs
  have hmade : defaults.made xs = [⟨8, some 42, "Gifts"⟩, ⟨9, some 43, "Gifts"⟩] := by decide +kernel
  have htype : OperationType.transfer ≠ .deposit := by decide
  obtain ⟨⟨hregisters, -⟩, -, shown, result, -, -, hcomes, -, hforbidden, -⟩ :=
    entitled_iff_shown xs 42 9 htype
  have hrows : (defaults.after xs).rows = defaults.rows ++ [⟨8, some 42, "Gifts"⟩, ⟨9, some 43, "Gifts"⟩] :=
    hmade ▸ hregisters.rows
  have hresult : result = .error (.forbidden "You cannot use this category") :=
    (hforbidden _).mpr ⟨rfl, ⟨9, some 43, "Gifts"⟩, by simp [hrows], rfl, 43, rfl, by decide⟩
  refine ⟨hmade, ?_, hresult ▸ hcomes⟩
  rw [hrows]
  decide

end CategoryTable
end Settlement
