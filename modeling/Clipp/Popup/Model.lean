import Clipp.Popup.TextMatch

open Foundation

namespace ClippModel.Popup

open ClippModel.Platform

variable {U : Type} [DecidableEq U] (W : WideChar U)

inductive Kind where
  | register
  | history
  deriving DecidableEq

structure PopupItem (U : Type) where
  kind : Kind := .history
  historyId : UInt64 := 0
  registerName : Bytes := []
  searchText : List U := []
  actionable : Bool := true
  deriving DecidableEq

inductive Group where
  | registers
  | history
  deriving DecidableEq

inductive Mode where
  | browse
  | edit
  deriving DecidableEq

inductive EscapeResult where
  | leftEditMode
  | clearedFilter
  | close
  deriving DecidableEq

structure Selection where
  group : Group := .history
  index : Nat := 0
  deriving DecidableEq

/-- The popup's state; a visible row is kept as the item that it points to. -/
structure PopupModel (U : Type) where
  registers : List (PopupItem U) := []
  history : List (PopupItem U) := []
  visibleRegisters : List (PopupItem U) := []
  visibleHistory : List (PopupItem U) := []
  filter : List U := []
  selection : Option Selection := none
  mode : Mode := .browse

namespace PopupModel

variable (model : PopupModel U)

def GroupItems (model : PopupModel U) : Group → List (PopupItem U)
  | .registers => model.visibleRegisters
  | .history => model.visibleHistory

def Refilter : PopupModel U :=
  { model with
    visibleRegisters := model.registers.filter fun item => ContainsInsensitive W item.searchText model.filter
    visibleHistory := model.history.filter fun item => ContainsInsensitive W item.searchText model.filter }

/-- The history is where a popup lands by itself. -/
def firstNonEmpty (model : PopupModel U) : Option Selection :=
  if model.visibleHistory ≠ [] then some { group := .history, index := 0 }
  else if model.visibleRegisters ≠ [] then some { group := .registers, index := 0 }
  else none

def otherGroup : Group → Group
  | .history => .registers
  | .registers => .history

def ClampSelection (model : PopupModel U) (preferredGroup : Option Group) : PopupModel U :=
  match model.selection with
  | none =>
    match preferredGroup with
    | some group =>
      if model.GroupItems group ≠ [] then { model with selection := some { group := group, index := 0 } }
      else { model with selection := model.firstNonEmpty }
    | none => { model with selection := model.firstNonEmpty }
  | some selected =>
    let items := model.GroupItems selected.group
    if items = [] then
      let other := otherGroup selected.group
      if model.GroupItems other ≠ [] then { model with selection := some { group := other, index := 0 } }
      else { model with selection := none }
    else { model with selection := some { selected with index := min selected.index (items.length - 1) } }

def keepGroup (model : PopupModel U) : Option Group := model.selection.map Selection.group

def SetItems (registers history : List (PopupItem U)) : PopupModel U :=
  let fed := Refilter W { model with registers := registers, history := history }
  fed.ClampSelection model.keepGroup

def SetFilter (text : List U) : PopupModel U :=
  let refiltered := Refilter W { model with filter := text }
  ClampSelection { refiltered with selection := none } model.keepGroup

def AppendToFilter (ch : U) : PopupModel U := SetFilter W model (model.filter ++ [ch])

def BackspaceFilter : Bool × PopupModel U :=
  if model.filter = [] then (false, model) else (true, SetFilter W model model.filter.dropLast)

def SelectedItem (model : PopupModel U) : Option (PopupItem U) :=
  match model.selection with
  | none => none
  | some selected => (model.GroupItems selected.group)[selected.index]?

def MoveUp (model : PopupModel U) : PopupModel U :=
  match model.selection with
  | none => model
  | some selected =>
    if selected.index > 0 then { model with selection := some { selected with index := selected.index - 1 } } else model

def MoveDown (model : PopupModel U) : PopupModel U :=
  match model.selection with
  | none => model
  | some selected =>
    if selected.index + 1 < (model.GroupItems selected.group).length then
      { model with selection := some { selected with index := selected.index + 1 } }
    else model

/-- The hop to a group, which keeps the closest row; Left and Right are the hops to their groups. -/
def hopTo (model : PopupModel U) (group : Group) : PopupModel U :=
  match model.selection with
  | none => model
  | some selected =>
    if selected.group = group then model
    else if model.GroupItems group = [] then model
    else
      { model with
        selection := some { group := group, index := min selected.index ((model.GroupItems group).length - 1) } }

def MoveLeft (model : PopupModel U) : PopupModel U := model.hopTo .registers

def MoveRight (model : PopupModel U) : PopupModel U := model.hopTo .history

def SelectAt (model : PopupModel U) (group : Group) (index : Nat) : PopupModel U :=
  if index ≥ (model.GroupItems group).length then model
  else { model with selection := some { group := group, index := index } }

def EnterEditMode (model : PopupModel U) : PopupModel U := { model with mode := .edit }

def LeaveEditMode (model : PopupModel U) : PopupModel U := { model with mode := .browse }

def HandleEscape : EscapeResult × PopupModel U :=
  if model.mode = .edit then (.leftEditMode, { model with mode := .browse })
  else if model.filter ≠ [] then (.clearedFilter, SetFilter W model [])
  else (.close, model)

end PopupModel

inductive PopupCall (U : Type) where
  | setItems (registers history : List (PopupItem U))
  | setFilter (text : List U)
  | appendToFilter (ch : U)
  | backspaceFilter
  | moveUp
  | moveDown
  | moveLeft
  | moveRight
  | selectAt (group : Group) (index : Nat)
  | enterEditMode
  | leaveEditMode
  | handleEscape

def popupStep (model : PopupModel U) : PopupCall U → PopupModel U
  | .setItems registers history => model.SetItems W registers history
  | .setFilter text => model.SetFilter W text
  | .appendToFilter ch => model.AppendToFilter W ch
  | .backspaceFilter => (model.BackspaceFilter W).2
  | .moveUp => model.MoveUp
  | .moveDown => model.MoveDown
  | .moveLeft => model.MoveLeft
  | .moveRight => model.MoveRight
  | .selectAt group index => model.SelectAt group index
  | .enterEditMode => model.EnterEditMode
  | .leaveEditMode => model.LeaveEditMode
  | .handleEscape => (model.HandleEscape W).2

def popupRun (calls : List (PopupCall U)) : PopupModel U := calls.foldl (popupStep W) {}

def lastFeeds (calls : List (PopupCall U)) : List (PopupItem U) × List (PopupItem U) :=
  calls.foldl (fun feeds call =>
    match call with
    | .setItems registers history => (registers, history)
    | _ => feeds) ([], [])

/-- What one call makes of the mode and of the filter text that the user has entered. -/
def inputStep (input : Mode × List U) : PopupCall U → Mode × List U
  | .setFilter text => (input.1, text)
  | .appendToFilter ch => (input.1, input.2 ++ [ch])
  | .backspaceFilter => (input.1, input.2.dropLast)
  | .enterEditMode => (.edit, input.2)
  | .leaveEditMode => (.browse, input.2)
  | .handleEscape => if input.1 = .edit then (.browse, input.2) else (.browse, [])
  | .setItems _ _ | .moveUp | .moveDown | .moveLeft | .moveRight | .selectAt _ _ => input

def lastInput (calls : List (PopupCall U)) : Mode × List U := calls.foldl inputStep (.browse, [])

/-- The filter text occurs in a row's text, but for the case of ASCII letters. -/
def Passes (filter : List U) (item : PopupItem U) : Prop :=
  filter.map (FoldAscii W) <:+: item.searchText.map (FoldAscii W)

instance (filter : List U) : DecidablePred (Passes W filter) := fun _ => inferInstanceAs (Decidable (_ <:+: _))

/-- The call changes the filter of this popup. -/
def ChangesFilter (model : PopupModel U) : PopupCall U → Prop
  | .setFilter _ | .appendToFilter _ => True
  | .backspaceFilter => model.filter ≠ []
  | .handleEscape => model.mode = .browse ∧ model.filter ≠ []
  | _ => False

def GivesFeeds : PopupCall U → Prop
  | .setItems _ _ => True
  | _ => False

structure ValidPopup (model : PopupModel U) : Prop where
  registers : model.visibleRegisters = model.registers.filter (Passes W model.filter)
  history : model.visibleHistory = model.history.filter (Passes W model.filter)
  selects : model.selection.isSome = true ↔ ∃ group, model.GroupItems group ≠ []
  inside : ∀ selected, model.selection = some selected → selected.index < (model.GroupItems selected.group).length

/-- What a call that gives feeds or changes the filter does to the selection. -/
structure KeepsPlace (before : PopupModel U) (call : PopupCall U) (after : PopupModel U) : Prop where
  hops : GivesFeeds call ∨ ChangesFilter before call → ∀ was now, before.selection = some was →
    after.selection = some now → now.group ≠ was.group → after.GroupItems was.group = []
  anchors : ChangesFilter before call → ∀ now, after.selection = some now → now.index = 0

end ClippModel.Popup

namespace ClippProof.Popup

open ClippModel.Platform ClippModel.Popup ClippModel.Popup.PopupModel

variable {U : Type} {W : WideChar U} {model after : PopupModel U} {own : Option Group} {group : Group}

@[simp] theorem groupItems_selection (model : PopupModel U) (selection : Option Selection) (group : Group) :
    PopupModel.GroupItems { model with selection := selection } group = model.GroupItems group := by
  cases group <;> rfl

theorem rows_iff : (∃ group, model.GroupItems group ≠ []) ↔ model.visibleHistory ≠ [] ∨ model.visibleRegisters ≠ [] := by
  constructor
  · rintro ⟨group, rows⟩
    cases group with
    | registers => exact .inr rows
    | history => exact .inl rows
  · rintro (rows | rows)
    · exact ⟨.history, rows⟩
    · exact ⟨.registers, rows⟩

/-- The selection after a clamp, for what was selected or else preferred before. -/
structure Clamped (model after : PopupModel U) (own : Option Group) : Prop where
  rest : after = { model with selection := after.selection }
  selects : after.selection.isSome = true ↔ ∃ group, model.GroupItems group ≠ []
  inside : ∀ selected, after.selection = some selected → selected.index < (model.GroupItems selected.group).length
  stays : ∀ was now, own = some was → after.selection = some now → now.group ≠ was → model.GroupItems was = []
  anchors : model.selection = none → ∀ now, after.selection = some now → now.index = 0

theorem firstNonEmpty_isSome : model.firstNonEmpty.isSome = true ↔ ∃ group, model.GroupItems group ≠ [] := by
  rw [rows_iff, firstNonEmpty]
  split_ifs with history registers
  · exact iff_of_true rfl (.inl history)
  · exact iff_of_true rfl (.inr registers)
  · exact iff_of_false Bool.false_ne_true (not_or.mpr ⟨history, registers⟩)

theorem firstNonEmpty_start {now : Selection} (lands : model.firstNonEmpty = some now) :
    now.index = 0 ∧ model.GroupItems now.group ≠ [] := by
  rw [firstNonEmpty] at lands
  split_ifs at lands with history registers
  · cases lands
    exact ⟨rfl, history⟩
  · cases lands
    exact ⟨rfl, registers⟩

theorem other_of_ne {g h : Group} (differ : h ≠ g) : otherGroup g = h := by
  cases g <;> cases h <;> first | rfl | exact absurd rfl differ

theorem clamped_landing (empty : ∀ was, own = some was → model.GroupItems was = []) :
    Clamped model { model with selection := model.firstNonEmpty } own where
  rest := rfl
  selects := firstNonEmpty_isSome
  inside := by
    intro now lands
    obtain ⟨first, rows⟩ := firstNonEmpty_start lands
    rw [first]
    exact List.length_pos_iff.mpr rows
  stays := fun was _ owned _ _ => empty was owned
  anchors := fun _ now lands => (firstNonEmpty_start lands).1

theorem clamped_top (rows : model.GroupItems group ≠ [])
    (owned : ∀ was, own = some was → was = group ∨ model.GroupItems was = []) :
    Clamped model { model with selection := some { group := group, index := 0 } } own where
  rest := rfl
  selects := iff_of_true rfl ⟨group, rows⟩
  inside := by
    intro now lands
    cases lands
    exact List.length_pos_iff.mpr rows
  stays := by
    intro was now own_was lands hopped
    cases lands
    rcases owned was own_was with rfl | empty
    · exact absurd rfl hopped
    · exact empty
  anchors := by
    intro _ now lands
    cases lands
    rfl

theorem clamped_none (empty : ∀ group, model.GroupItems group = []) :
    Clamped model { model with selection := none } own where
  rest := rfl
  selects := iff_of_false Bool.false_ne_true (fun ⟨group, rows⟩ => rows (empty group))
  inside := by
    intro now lands
    cases lands
  stays := fun was _ _ _ _ => empty was
  anchors := by
    intro _ now lands
    cases lands

theorem clampSelection_clamps (model : PopupModel U) (preferred : Option Group) :
    Clamped model (model.ClampSelection preferred) (model.keepGroup.or preferred) := by
  rw [ClampSelection.eq_def]
  cases held : model.selection with
  | none =>
    have keeps : model.keepGroup.or preferred = preferred := by rw [keepGroup, held]; rfl
    rw [keeps]
    cases preferred with
    | none => exact clamped_landing (by simp)
    | some group =>
      simp only
      split_ifs with rows
      · exact clamped_top rows (fun was owned => .inl (Option.some.inj owned).symm)
      · apply clamped_landing
        intro was owned
        cases owned
        exact not_not.mp rows
  | some selected =>
    have keeps : model.keepGroup.or preferred = some selected.group := by rw [keepGroup, held]; rfl
    rw [keeps]
    simp only
    split_ifs with gone rows
    · apply clamped_top rows
      intro was owned
      cases owned
      exact .inr gone
    · apply clamped_none
      intro group
      by_cases same : group = selected.group
      · rw [same]
        exact gone
      · rw [← other_of_ne same]
        exact not_not.mp rows
    · have positive := List.length_pos_iff.mpr gone
      constructor
      · rfl
      · exact iff_of_true rfl ⟨selected.group, gone⟩
      · intro now lands
        cases lands
        show min selected.index ((model.GroupItems selected.group).length - 1) < (model.GroupItems selected.group).length
        omega
      · intro was now owned lands hopped
        cases owned
        cases lands
        exact absurd rfl hopped
      · intro unselected
        rw [held] at unselected
        cases unselected

theorem hops_of_clamped {between : PopupModel U} (clamped : Clamped between after model.keepGroup) :
    ∀ was now, model.selection = some was → after.selection = some now → now.group ≠ was.group →
      after.GroupItems was.group = [] := by
  intro was now held lands hopped
  have owned : model.keepGroup = some was.group := by rw [keepGroup, held]; rfl
  rw [clamped.rest, groupItems_selection]
  exact clamped.stays was.group now owned lands hopped

theorem keeps_of_other (model after : PopupModel U) {call : PopupCall U} (feeds : ¬ GivesFeeds call)
    (filter : ¬ ChangesFilter model call) : KeepsPlace model call after where
  hops := fun changes => absurd changes (not_or.mpr ⟨feeds, filter⟩)
  anchors := fun changes => absurd changes filter

def feeds (model : PopupModel U) : List (PopupItem U) × List (PopupItem U) := (model.registers, model.history)

def input (model : PopupModel U) : Mode × List U := (model.mode, model.filter)

theorem input_hopTo (model : PopupModel U) (group : Group) : input (model.hopTo group) = input model := by
  rw [hopTo.eq_def]
  cases model.selection with
  | none => rfl
  | some selected =>
    simp only
    split_ifs <;> rfl

theorem feeds_hopTo (model : PopupModel U) (group : Group) : feeds (model.hopTo group) = feeds model := by
  rw [hopTo.eq_def]
  cases model.selection with
  | none => rfl
  | some selected =>
    simp only
    split_ifs <;> rfl

variable [DecidableEq U]

theorem refilter_eq (model : PopupModel U) : Refilter W model =
    { model with
      visibleRegisters := model.registers.filter (Passes W model.filter)
      visibleHistory := model.history.filter (Passes W model.filter) } := by
  have same : (fun item : PopupItem U => ContainsInsensitive W item.searchText model.filter) =
      fun item => decide (Passes W model.filter item) := by
    funext item
    rw [Bool.eq_iff_iff, decide_eq_true_eq, containsInsensitive_iff, Passes]
  rw [Refilter, same]

/-- A clamp of a popup whose rows are those of its filter makes it valid. -/
theorem valid_of_clamped (registers : model.visibleRegisters = model.registers.filter (Passes W model.filter))
    (history : model.visibleHistory = model.history.filter (Passes W model.filter)) (clamped : Clamped model after own) :
    ValidPopup W after := by
  have same := clamped.rest
  constructor
  · rw [same]
    exact registers
  · rw [same]
    exact history
  · have rows : ∀ group, after.GroupItems group = model.GroupItems group := by
      intro group
      rw [same]
      cases group <;> rfl
    simp only [rows]
    exact clamped.selects
  · intro now lands
    rw [same, groupItems_selection]
    exact clamped.inside now lands

theorem valid_of_selected {now : Selection} (valid : ValidPopup W model)
    (inside : now.index < (model.GroupItems now.group).length) :
    ValidPopup W { model with selection := some now } where
  registers := valid.registers
  history := valid.history
  selects := by
    apply iff_of_true rfl
    refine ⟨now.group, List.length_pos_iff.mp ?_⟩
    rw [groupItems_selection]
    exact Nat.zero_lt_of_lt inside
  inside := by
    intro selected lands
    cases lands
    rw [groupItems_selection]
    exact inside

theorem setItems_valid (model : PopupModel U) (registers history : List (PopupItem U)) :
    ValidPopup W (model.SetItems W registers history) := by
  apply valid_of_clamped ?_ ?_
    (clampSelection_clamps (Refilter W { model with registers := registers, history := history }) _)
  · rw [refilter_eq]
  · rw [refilter_eq]

theorem setFilter_valid (model : PopupModel U) (text : List U) : ValidPopup W (model.SetFilter W text) := by
  apply valid_of_clamped ?_ ?_
    (clampSelection_clamps { Refilter W { model with filter := text } with selection := none } _)
  · rw [refilter_eq]
  · rw [refilter_eq]

theorem hopTo_valid (model : PopupModel U) (valid : ValidPopup W model) (group : Group) :
    ValidPopup W (model.hopTo group) := by
  rw [hopTo.eq_def]
  cases model.selection with
  | none => exact valid
  | some selected =>
    simp only
    split_ifs with same empty
    · exact valid
    · exact valid
    · have positive := List.length_pos_iff.mpr empty
      apply valid_of_selected valid
      show min selected.index ((model.GroupItems group).length - 1) < (model.GroupItems group).length
      omega

theorem setItems_clamps (model : PopupModel U) (registers history : List (PopupItem U)) :
    Clamped (Refilter W { model with registers := registers, history := history }) (model.SetItems W registers history)
      model.keepGroup := by
  have clamps := clampSelection_clamps (Refilter W { model with registers := registers, history := history }) model.keepGroup
  have kept : (Refilter W { model with registers := registers, history := history }).keepGroup = model.keepGroup := rfl
  rw [kept, Option.or_self] at clamps
  exact clamps

theorem setFilter_clamps (model : PopupModel U) (text : List U) :
    Clamped { Refilter W { model with filter := text } with selection := none } (model.SetFilter W text) model.keepGroup :=
  clampSelection_clamps { Refilter W { model with filter := text } with selection := none } model.keepGroup

theorem step_valid (model : PopupModel U) (valid : ValidPopup W model) (call : PopupCall U) :
    ValidPopup W (popupStep W model call) := by
  cases call with
  | setItems registers history => exact setItems_valid model registers history
  | setFilter text => exact setFilter_valid model text
  | appendToFilter ch => exact setFilter_valid model _
  | backspaceFilter =>
    rw [popupStep, BackspaceFilter]
    split_ifs
    · exact valid
    · exact setFilter_valid model _
  | moveUp =>
    rw [popupStep, MoveUp.eq_def]
    cases held : model.selection with
    | none => exact valid
    | some selected =>
      simp only
      split_ifs
      · have inside := valid.inside selected held
        exact valid_of_selected valid (Nat.lt_of_le_of_lt (Nat.sub_le _ _) inside)
      · exact valid
  | moveDown =>
    rw [popupStep, MoveDown.eq_def]
    cases held : model.selection with
    | none => exact valid
    | some selected =>
      simp only
      split_ifs with below
      · exact valid_of_selected valid below
      · exact valid
  | moveLeft => exact hopTo_valid model valid .registers
  | moveRight => exact hopTo_valid model valid .history
  | selectAt group index =>
    rw [popupStep, SelectAt]
    split_ifs with outside
    · exact valid
    · exact valid_of_selected valid (Nat.lt_of_not_le outside)
  | enterEditMode => exact ⟨valid.registers, valid.history, valid.selects, valid.inside⟩
  | leaveEditMode => exact ⟨valid.registers, valid.history, valid.selects, valid.inside⟩
  | handleEscape =>
    rw [popupStep, HandleEscape]
    split_ifs
    · exact ⟨valid.registers, valid.history, valid.selects, valid.inside⟩
    · exact setFilter_valid model _
    · exact valid

theorem keeps_of_refilter (model : PopupModel U) (call : PopupCall U) (text : List U) :
    KeepsPlace model call (model.SetFilter W text) where
  hops := fun _ => hops_of_clamped (setFilter_clamps model text)
  anchors := fun _ => (setFilter_clamps model text).anchors rfl

theorem step_keeps_place (model : PopupModel U) (call : PopupCall U) : KeepsPlace model call (popupStep W model call) := by
  cases call with
  | setItems registers history =>
    constructor
    · exact fun _ => hops_of_clamped (setItems_clamps model registers history)
    · intro filter
      exact absurd filter id
  | setFilter text => exact keeps_of_refilter model _ text
  | appendToFilter ch => exact keeps_of_refilter model _ _
  | backspaceFilter =>
    rw [popupStep, BackspaceFilter]
    split_ifs with empty
    · exact keeps_of_other model model id (not_not.mpr empty)
    · exact keeps_of_refilter model _ _
  | handleEscape =>
    rw [popupStep, HandleEscape]
    split_ifs with edit given
    · apply keeps_of_other model _ id
      rintro ⟨browse, _⟩
      rw [edit] at browse
      cases browse
    · exact keeps_of_refilter model _ _
    · exact keeps_of_other model model id (fun changes => given changes.2)
  | moveUp => exact keeps_of_other model _ id id
  | moveDown => exact keeps_of_other model _ id id
  | moveLeft => exact keeps_of_other model _ id id
  | moveRight => exact keeps_of_other model _ id id
  | selectAt group index => exact keeps_of_other model _ id id
  | enterEditMode => exact keeps_of_other model _ id id
  | leaveEditMode => exact keeps_of_other model _ id id

theorem feeds_setFilter (model : PopupModel U) (text : List U) : feeds (model.SetFilter W text) = feeds model := by
  rw [feeds, (setFilter_clamps model text).rest]
  rfl

theorem feeds_step (model : PopupModel U) (call : PopupCall U) : feeds (popupStep W model call) =
    match call with
    | .setItems registers history => (registers, history)
    | _ => feeds model := by
  cases call with
  | setItems registers history =>
    show feeds (model.SetItems W registers history) = (registers, history)
    rw [feeds, (setItems_clamps model registers history).rest]
    rfl
  | setFilter text => exact feeds_setFilter model text
  | appendToFilter ch => exact feeds_setFilter model _
  | backspaceFilter =>
    rw [popupStep, BackspaceFilter]
    split_ifs
    · rfl
    · exact feeds_setFilter model _
  | moveUp =>
    rw [popupStep, MoveUp.eq_def]
    cases model.selection with
    | none => rfl
    | some selected =>
      simp only
      split_ifs <;> rfl
  | moveDown =>
    rw [popupStep, MoveDown.eq_def]
    cases model.selection with
    | none => rfl
    | some selected =>
      simp only
      split_ifs <;> rfl
  | moveLeft => exact feeds_hopTo model .registers
  | moveRight => exact feeds_hopTo model .history
  | selectAt group index =>
    rw [popupStep, SelectAt]
    split_ifs <;> rfl
  | enterEditMode => rfl
  | leaveEditMode => rfl
  | handleEscape =>
    rw [popupStep, HandleEscape]
    split_ifs
    · rfl
    · exact feeds_setFilter model _
    · rfl

theorem input_setFilter (model : PopupModel U) (text : List U) :
    input (model.SetFilter W text) = (model.mode, text) := by
  rw [input, (setFilter_clamps model text).rest]
  rfl

theorem input_step (model : PopupModel U) (call : PopupCall U) :
    input (popupStep W model call) = inputStep (input model) call := by
  cases call with
  | setItems registers history =>
    show input (model.SetItems W registers history) = input model
    rw [input, (setItems_clamps model registers history).rest]
    rfl
  | setFilter text => exact input_setFilter model text
  | appendToFilter ch => exact input_setFilter model _
  | backspaceFilter =>
    rw [popupStep, BackspaceFilter]
    split_ifs with empty
    · show (model.mode, model.filter) = (model.mode, model.filter.dropLast)
      rw [empty, List.dropLast_nil]
    · exact input_setFilter model _
  | moveUp =>
    rw [popupStep, MoveUp.eq_def]
    cases model.selection with
    | none => rfl
    | some selected =>
      simp only
      split_ifs <;> rfl
  | moveDown =>
    rw [popupStep, MoveDown.eq_def]
    cases model.selection with
    | none => rfl
    | some selected =>
      simp only
      split_ifs <;> rfl
  | moveLeft => exact input_hopTo model .registers
  | moveRight => exact input_hopTo model .history
  | selectAt group index =>
    rw [popupStep, SelectAt]
    split_ifs <;> rfl
  | enterEditMode => rfl
  | leaveEditMode => rfl
  | handleEscape =>
    have escape : inputStep (input model) .handleEscape =
        if model.mode = .edit then (.browse, model.filter) else (.browse, []) := rfl
    rw [escape, popupStep, HandleEscape]
    split_ifs with edit given
    · rfl
    · rw [input_setFilter]
      cases held : model.mode with
      | browse => rfl
      | edit => exact absurd held edit
    · show (model.mode, model.filter) = (.browse, [])
      rw [not_not.mp given]
      cases held : model.mode with
      | browse => rfl
      | edit => exact absurd held edit

theorem selectedItem_isSome (valid : ValidPopup W model) : model.SelectedItem.isSome = model.selection.isSome := by
  rw [SelectedItem.eq_def]
  cases held : model.selection with
  | none => rfl
  | some selected =>
    simp only [List.getElem?_eq_getElem (valid.inside selected held)]
    rfl

theorem fresh_valid : ValidPopup W ({} : PopupModel U) where
  registers := rfl
  history := rfl
  selects := by
    apply iff_of_false Bool.false_ne_true
    rintro ⟨group, rows⟩
    cases group <;> exact rows rfl
  inside := by
    intro selected held
    cases held

theorem popupRun_append (calls : List (PopupCall U)) (call : PopupCall U) :
    popupRun W (calls ++ [call]) = popupStep W (popupRun W calls) call := List.foldl_append

theorem run_valid (calls : List (PopupCall U)) :
    ValidPopup W (popupRun W calls) ∧ feeds (popupRun W calls) = lastFeeds calls ∧
      input (popupRun W calls) = lastInput calls := by
  induction calls using List.reverseRecOn with
  | nil => exact ⟨fresh_valid, rfl, rfl⟩
  | append_singleton calls call ih =>
    obtain ⟨valid, same, given⟩ := ih
    have last : lastFeeds (calls ++ [call]) =
        match call with
        | .setItems registers history => (registers, history)
        | _ => lastFeeds calls := List.foldl_append
    have typed : lastInput (calls ++ [call]) = inputStep (lastInput calls) call := List.foldl_append
    rw [popupRun_append]
    refine ⟨step_valid _ valid call, ?_, ?_⟩
    · rw [feeds_step, last, same]
    · rw [input_step, typed, given]

/-- After any calls the popup shows the rows of the last feeds that pass the filter the calls have entered, and
selects one if there is one; a next call keeps the selection's place. -/
theorem popup_selection_valid (W : WideChar U) (calls : List (PopupCall U)) :
    ValidPopup W (popupRun W calls) ∧ ((popupRun W calls).registers, (popupRun W calls).history) = lastFeeds calls ∧
      ((popupRun W calls).mode, (popupRun W calls).filter) = lastInput calls ∧
      ((popupRun W calls).SelectedItem.isSome = true ↔ (popupRun W calls).selection.isSome = true) ∧
      ∀ call, KeepsPlace (popupRun W calls) call (popupStep W (popupRun W calls) call) := by
  obtain ⟨valid, same, given⟩ := run_valid (W := W) calls
  refine ⟨valid, same, given, ?_, step_keeps_place (popupRun W calls)⟩
  rw [selectedItem_isSome valid]

end ClippProof.Popup
