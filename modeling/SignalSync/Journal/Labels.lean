import SignalSync.Delivery
import SignalSync.Ids
import SignalSync.Library.Except
import SignalSync.Library.Owned
import SignalSync.Library.Run
import SignalSync.Library.Text

/-!
# Tags, setups and templates of the journal

What a user configures in the journal lies in tables it shares with all others: groups of
tags and tags, some of them the system's, which tags a trade has, setups and templates.

* `Config.Sound`: a tag in a user's group is that user's, and a trade has tags of its owner
  or the system's;
* `Frame.request`: a request writes and deletes rows of its own user only;
* `visible_run`: whatever others request, a user sees what it saw before.
-/

namespace SignalSync

namespace Journal

open Library

abbrev UserId := Uuid

structure TagGroup where
  userId : Option UserId
  name : String
  color : Option String
  isSystem : Bool
  position : Int
deriving DecidableEq

def TagGroup.rights (group : TagGroup) : Bool × Option UserId := (group.isSystem, group.userId)

structure Tag where
  groupId : Uuid
  userId : Option UserId
  name : String
  isSystem : Bool
  position : Int
deriving DecidableEq

structure Setup where
  userId : UserId
  name : String
  position : Int
deriving DecidableEq

inductive JournalTemplateType
  | daily | trade
deriving DecidableEq

structure JournalTemplate where
  ownerId : Option UserId
  name : String
  templateType : JournalTemplateType
  isSystem : Bool
  questions : List String
deriving DecidableEq

/-- A trade, with the user of its account. -/
structure JournalTrade where
  userId : UserId
  setup : Option String := none
deriving DecidableEq

structure Config where
  groups : Table Uuid TagGroup := ∅
  tags : Table Uuid Tag := ∅
  trades : Table Uuid JournalTrade := ∅
  /-- `trade_tags`: a trade and a tag. -/
  tradeTags : Table (Uuid × Uuid) Unit := ∅
  setups : Table Uuid Setup := ∅
  templates : Table Uuid JournalTemplate := ∅

/-- Two rows under one primary key. -/
def integrityError : HttpError := ⟨500, "Internal Server Error"⟩

/-- `coalesce(max(position), -1) + 1`. -/
def nextPosition (positions : List Int) : Int := positions.foldr max (-1) + 1

namespace Config

section

variable [Unicode] (s : Config) (user : UserId)

def nonEmptyName (what : String) (limit : Nat) (name : String) : Except HttpError String :=
  let name := Unicode.strip name
  if name = "" then .error ⟨400, s!"{what} name cannot be empty."⟩
  else if limit < name.length then .error ⟨400, s!"{what} name cannot exceed {limit} characters."⟩
  else .ok name

def normalizeColor (color : Option String) : Except HttpError (Option String) :=
  match color.map Unicode.strip with
  | none => .ok none
  | some color =>
    if color = "" then .ok none
    else if color.startsWith "#" = false ∨ color.length ≠ 7 then
      .error ⟨400, "Color must be a valid 7-character hex code (e.g. #3b82f6)."⟩
    else .ok (some color)

/-! ### Groups -/

def createTagGroup (id : Uuid) (name : String) (color : Option String) : Except HttpError Config := do
  let name ← nonEmptyName "Group" 100 name
  let color ← normalizeColor color
  let position := nextPosition ((s.groups.select fun _ g => g.userId = some user).map fun e => e.2.position)
  match s.groups.push id { userId := some user, name, color, isSystem := false, position } with
  | some groups => return { s with groups }
  | none => throw integrityError

/-- The group, if it is the user's own. -/
def ownGroup (verb : String) (groupId : Uuid) : Except HttpError TagGroup :=
  match s.groups.get? groupId with
  | none => .error ⟨404, "Group not found."⟩
  | some group =>
    if group.isSystem ∨ group.userId ≠ some user then .error ⟨403, s!"You do not have permission to {verb} this group."⟩ else .ok group

def updateTagGroup (groupId : Uuid) (name color : Option String) : Except HttpError Config := do
  let group ← s.ownGroup user "edit" groupId
  let name ← name.elim (pure group.name) (nonEmptyName "Group" 100)
  let color ← normalizeColor color
  return { s with groups := s.groups.modify groupId fun g => { g with name, color := color.orElse fun _ => g.color } }

/-- Tags that are deleted go with their links to trades. -/
def dropTags (doomed : Uuid → Tag → Bool) : Config :=
  { s with
    tags := s.tags.filter fun id tag => !doomed id tag
    tradeTags := s.tradeTags.filter fun link _ => !(s.tags.get? link.2).any (doomed link.2) }

def deleteTagGroup (groupId : Uuid) : Except HttpError Config := do
  let _ ← s.ownGroup user "delete" groupId
  return { s.dropTags fun _ tag => tag.groupId = groupId with groups := s.groups.remove groupId }

/-- `UPDATE ... SET position WHERE id = ... AND user_id = ...`, id by id. -/
def reorder {α : Type} (owner : α → Option UserId) (place : Int → α → α) (t : Table Uuid α) (ids : List Uuid) : Table Uuid α :=
  ids.zipIdx.foldl (fun t e => Table.modifyOwn (fun _ => owner) user (place e.2) t e.1) t

def reorderTagGroups (ids : List Uuid) : Config :=
  { s with groups := reorder user TagGroup.userId (fun position g => { g with position }) s.groups ids }

/-! ### Tags -/

def createTag (id groupId : Uuid) (name : String) : Except HttpError Config := do
  match s.groups.get? groupId with
  | none => throw ⟨404, "Group not found."⟩
  | some group =>
    if group.isSystem = false ∧ group.userId ≠ some user then
      throw ⟨403, "You do not have permission to add tags to this group."⟩
    let name ← nonEmptyName "Tag" 100 name
    let position := nextPosition ((s.tags.select fun _ t => t.groupId = groupId).map fun e => e.2.position)
    match s.tags.push id { groupId, userId := some user, name, isSystem := false, position } with
    | some tags => return { s with tags }
    | none => throw integrityError

/-- The tag, if it is the user's own. -/
def ownTag (verb : String) (tagId : Uuid) : Except HttpError Tag :=
  match s.tags.get? tagId with
  | none => .error ⟨404, "Tag not found."⟩
  | some tag => if tag.userId ≠ some user then .error ⟨403, s!"You do not have permission to {verb} this tag."⟩ else .ok tag

def updateTag (tagId : Uuid) (name : String) : Except HttpError Config := do
  let _ ← s.ownTag user "edit" tagId
  let name ← nonEmptyName "Tag" 100 name
  return { s with tags := s.tags.modify tagId fun tag => { tag with name } }

def deleteTag (tagId : Uuid) : Except HttpError Config := do
  let _ ← s.ownTag user "delete" tagId
  return s.dropTags fun id _ => id = tagId

def reorderTags (ids : List Uuid) : Config :=
  { s with tags := reorder user Tag.userId (fun position tag => { tag with position }) s.tags ids }

/-! ### Trades -/

def validateTradeOwnership (tradeId : Uuid) : Except HttpError JournalTrade :=
  match s.trades.get? tradeId with
  | none => .error ⟨404, "Trade not found."⟩
  | some trade => if trade.userId ≠ user then .error ⟨403, "You do not have permission to access this trade."⟩ else .ok trade

/-- The first tag that is not there, or is another user's. -/
def checkTags (uuidText : Uuid → String) : List Uuid → Except HttpError Unit
  | [] => .ok ()
  | tagId :: rest =>
    match s.tags.get? tagId with
    | none => .error ⟨404, s!"Tag {uuidText tagId} not found."⟩
    | some tag =>
      if tag.userId ≠ none ∧ tag.userId ≠ some user then .error ⟨403, s!"You do not have permission to use tag {tag.name}."⟩
      else checkTags uuidText rest

def updateTradeTags (uuidText : Uuid → String) (tradeId : Uuid) (tagIds : List Uuid) : Except HttpError Config := do
  let _ ← s.validateTradeOwnership user tradeId
  s.checkTags user uuidText tagIds
  if tagIds.Nodup then
    let cleared := s.tradeTags.filter fun link _ => link.1 ≠ tradeId
    return { s with tradeTags := cleared.addAll (tagIds.map fun tagId => ((tradeId, tagId), ())) }
  else throw integrityError

/-! ### Setups -/

/-- `_ensure_setup`; `id` is for a new row. -/
def ensureSetup (id : Uuid) (name : String) : Except HttpError Config :=
  if s.setups.entries.any fun e => e.2.userId = user && e.2.name = name then .ok s
  else
    let position := nextPosition ((s.setups.select fun _ setup => setup.userId = user).map fun e => e.2.position)
    match s.setups.push id { userId := user, name, position } with
    | some setups => .ok { s with setups }
    | none => .error integrityError

def createSetup (id : Uuid) (name : String) : Except HttpError Config := do
  let name ← nonEmptyName "Setup" 64 name
  s.ensureSetup user id name

def deleteSetup (setupId : Uuid) : Except HttpError Config :=
  match s.setups.get? setupId with
  | none => .error ⟨404, "Setup not found."⟩
  | some setup =>
    if setup.userId ≠ user then .error ⟨403, "You do not have permission to delete this setup."⟩
    else .ok { s with setups := s.setups.remove setupId }

def reorderSetups (ids : List Uuid) : Config :=
  { s with setups := reorder user (fun setup => some setup.userId) (fun position setup => { setup with position }) s.setups ids }

def updateTradeSetup (id tradeId : Uuid) (setup : Option String) : Except HttpError Config := do
  let _ ← s.validateTradeOwnership user tradeId
  -- an empty text is no name, and neither is one of blanks
  let name := (setup.map Unicode.strip).filter (· ≠ "")
  let s ← name.elim (pure s) fun name =>
    if 64 < name.length then throw ⟨400, "Setup name cannot exceed 64 characters."⟩ else s.ensureSetup user id name
  return { s with trades := s.trades.modify tradeId fun trade => { trade with setup := name } }

/-! ### Templates -/

def createTemplate (id : Uuid) (name : String) (templateType : JournalTemplateType) (questions : List String) : Except HttpError Config :=
  match s.templates.push id { ownerId := some user, name, templateType, isSystem := false, questions } with
  | some templates => .ok { s with templates }
  | none => .error integrityError

def deleteTemplate (templateId : Uuid) : Except HttpError Config :=
  match (s.templates.get? templateId).filter fun template => template.isSystem || template.ownerId = some user with
  | none => .error ⟨404, "Template not found."⟩
  | some template =>
    if template.isSystem ∨ template.ownerId ≠ some user then .error ⟨403, "Cannot delete this template."⟩
    else .ok { s with templates := s.templates.remove templateId }

/-! ### What a user sees -/

def byPosition {α : Type} (position : α → Int) (rows : List (Uuid × α)) : List (Uuid × α) :=
  rows.mergeSort fun e e' => position e.2 ≤ position e'.2

/-- `list_groups_with_tags`: the system's and the user's groups, each with the system's and the user's tags in it. -/
def listUserTagsConfig : List ((Uuid × TagGroup) × List (Uuid × Tag)) :=
  let groups := byPosition TagGroup.position (s.groups.select fun _ group => group.isSystem || group.userId = some user)
  let tags := byPosition Tag.position (s.tags.select fun _ tag => tag.userId = none || tag.userId = some user)
  groups.map fun group => (group, tags.filter fun tag => tag.2.groupId = group.1)

/-- `collate` is the order of texts in the database. -/
def getTradeTags (collate : String → String → Bool) (tradeId : Uuid) : Except HttpError (List (Uuid × Tag)) :=
  (s.validateTradeOwnership user tradeId).map fun _ =>
    (s.tags.select fun id _ => (s.tradeTags.get? (tradeId, id)).isSome).mergeSort fun e e' =>
      if e.2.position = e'.2.position then collate e.2.name e'.2.name else e.2.position < e'.2.position

def listSetups : List (Uuid × Setup) :=
  byPosition Setup.position (s.setups.select fun _ setup => setup.userId = user)

def listTemplates (templateType : Option JournalTemplateType) : List (Uuid × JournalTemplate) :=
  let visible := s.templates.select fun _ template =>
    (template.isSystem || template.ownerId = some user) && templateType.all (template.templateType = ·)
  (visible.filter fun e => e.2.isSystem) ++ visible.filter fun e => !e.2.isSystem

end

/-! ### Requests -/

/-- The id is for a row that the request adds. -/
inductive LabelRequest
  | createTagGroup (id : Uuid) (name : String) (color : Option String)
  | updateTagGroup (groupId : Uuid) (name color : Option String)
  | deleteTagGroup (groupId : Uuid)
  | reorderTagGroups (ids : List Uuid)
  | createTag (id groupId : Uuid) (name : String)
  | updateTag (tagId : Uuid) (name : String)
  | deleteTag (tagId : Uuid)
  | reorderTags (ids : List Uuid)
  | updateTradeTags (tradeId : Uuid) (tagIds : List Uuid)
  | createSetup (id : Uuid) (name : String)
  | deleteSetup (setupId : Uuid)
  | reorderSetups (ids : List Uuid)
  | updateTradeSetup (id tradeId : Uuid) (setup : Option String)
  | createTemplate (id : Uuid) (name : String) (templateType : JournalTemplateType) (questions : List String)
  | deleteTemplate (templateId : Uuid)

section

variable [Unicode] (uuidText : Uuid → String)

def request (s : Config) (user : UserId) : LabelRequest → Except HttpError Config
  | .createTagGroup id name color => s.createTagGroup user id name color
  | .updateTagGroup groupId name color => s.updateTagGroup user groupId name color
  | .deleteTagGroup groupId => s.deleteTagGroup user groupId
  | .reorderTagGroups ids => .ok (s.reorderTagGroups user ids)
  | .createTag id groupId name => s.createTag user id groupId name
  | .updateTag tagId name => s.updateTag user tagId name
  | .deleteTag tagId => s.deleteTag user tagId
  | .reorderTags ids => .ok (s.reorderTags user ids)
  | .updateTradeTags tradeId tagIds => s.updateTradeTags user uuidText tradeId tagIds
  | .createSetup id name => s.createSetup user id name
  | .deleteSetup setupId => s.deleteSetup user setupId
  | .reorderSetups ids => .ok (s.reorderSetups user ids)
  | .updateTradeSetup id tradeId setup => s.updateTradeSetup user id tradeId setup
  | .createTemplate id name templateType questions => s.createTemplate user id name templateType questions
  | .deleteTemplate templateId => s.deleteTemplate user templateId

/-- A request of a user; one that fails writes nothing. -/
def step (s : Config) (e : UserId × LabelRequest) : Option Config :=
  some ((s.request uuidText e.1 e.2).toOption.getD s)

end

/-! ## Whose rows they are -/

def linkOwner (s : Config) (link : Uuid × Uuid) (_ : Unit) : Option UserId := (s.trades.get? link.1).map JournalTrade.userId

structure Sound (s : Config) : Prop where
  group : ∀ id group, s.groups.get? id = some group → group.isSystem → group.userId = none
  template : ∀ id template, s.templates.get? id = some template → template.isSystem → template.ownerId = none
  tag : ∀ id tag, s.tags.get? id = some tag → ∃ group, s.groups.get? tag.groupId = some group ∧
    (group.isSystem = false → group.userId = tag.userId)
  link : ∀ tradeId tagId, s.tradeTags.get? (tradeId, tagId) = some () → ∃ trade tag, s.trades.get? tradeId = some trade ∧
    s.tags.get? tagId = some tag ∧ (tag.userId = none ∨ tag.userId = some trade.userId)

/-- The rows of others are as they were. -/
structure Frame (user : UserId) (s t : Config) : Prop where
  groups : t.groups.others (fun _ => TagGroup.userId) user = s.groups.others (fun _ => TagGroup.userId) user
  tags : t.tags.others (fun _ => Tag.userId) user = s.tags.others (fun _ => Tag.userId) user
  trades : t.trades.others (fun _ trade => some trade.userId) user = s.trades.others (fun _ trade => some trade.userId) user
  tradeTags : t.tradeTags.others s.linkOwner user = s.tradeTags.others s.linkOwner user
  setups : t.setups.others (fun _ setup => some setup.userId) user = s.setups.others (fun _ setup => some setup.userId) user
  templates : t.templates.others (fun _ => JournalTemplate.ownerId) user = s.templates.others (fun _ => JournalTemplate.ownerId) user
  owner : ∀ id, (t.trades.get? id).map JournalTrade.userId = (s.trades.get? id).map JournalTrade.userId

theorem Frame.refl (user : UserId) (s : Config) : Frame user s s := ⟨rfl, rfl, rfl, rfl, rfl, rfl, fun _ => rfl⟩

/-- A request of the user from a sound state. -/
abbrev Kept (user : UserId) (s t : Config) : Prop := t.Sound ∧ Frame user s t

section

variable [Unicode] {s t : Config} {user : UserId}

/-! ### Reordering -/

section

variable {α β : Type} {table : Table Uuid α} {owner : α → Option UserId} {place : Int → α → α} {ids : List Uuid} {id : Uuid}

omit [Unicode] in
/-- What a position is no part of. -/
theorem map_get?_reorder {f : α → β} (hf : ∀ position a, f (place position a) = f a) :
    ((reorder user owner place table ids).get? id).map f = (table.get? id).map f := by
  rw [reorder]
  induction ids.zipIdx generalizing table with
  | nil => rfl
  | cons e es ih =>
    rw [List.foldl_cons, ih, Table.get?_modifyOwn]
    split
    · rw [Option.map_map]
      refine Option.map_congr fun a _ => ?_
      dsimp only [Function.comp]
      split
      · exact hf _ a
      · rfl
    · rfl

omit [Unicode] in
theorem others_reorder (howner : ∀ position a, owner (place position a) = owner a) :
    (reorder user owner place table ids).others (fun _ => owner) user = table.others (fun _ => owner) user := by
  rw [reorder]
  induction ids.zipIdx generalizing table with
  | nil => rfl
  | cons e es ih => rw [List.foldl_cons, ih, Table.others_modifyOwn fun a => howner e.2 a]

end

/-! ### Groups -/

omit [Unicode] in
theorem Sound.of_groups (h : s.Sound) {groups : Table Uuid TagGroup}
    (hkeep : ∀ id group, s.groups.get? id = some group →
      ∃ group', groups.get? id = some group' ∧ group'.isSystem = group.isSystem ∧ group'.userId = group.userId)
    (hsystem : ∀ id group, groups.get? id = some group → group.isSystem → group.userId = none) : Sound { s with groups } where
  group := hsystem
  template := h.template
  tag id tag htag := by
    obtain ⟨group, hgroup, huser⟩ := h.tag id tag htag
    obtain ⟨group', hgroup', hsystem', huser'⟩ := hkeep _ group hgroup
    exact ⟨group', hgroup', fun hno => huser'.trans (huser (hsystem' ▸ hno))⟩
  link := h.link

omit [Unicode] in
/-- Groups that stay whose they are. -/
theorem Sound.of_map_groups (h : s.Sound) {groups : Table Uuid TagGroup}
    (hmap : ∀ id, (groups.get? id).map TagGroup.rights = (s.groups.get? id).map TagGroup.rights) : Sound { s with groups } := by
  refine h.of_groups (fun id group hgroup => ?_) fun id group hgroup hsystem => ?_
  · obtain ⟨group', hgroup', hrights⟩ := Option.map_eq_some_iff.mp ((hmap id).trans (by rw [hgroup, Option.map_some]))
    exact ⟨group', hgroup', (Prod.mk.inj hrights).1, (Prod.mk.inj hrights).2⟩
  · obtain ⟨group', hgroup', hrights⟩ := Option.map_eq_some_iff.mp ((hmap id).symm.trans (by rw [hgroup, Option.map_some]))
    rw [← (Prod.mk.inj hrights).2]
    exact h.group id group' hgroup' ((Prod.mk.inj hrights).1.trans hsystem)

omit [Unicode] in
theorem of_ownGroup {verb : String} {groupId : Uuid} {group : TagGroup} (h : s.ownGroup user verb groupId = .ok group) :
    s.groups.get? groupId = some group ∧ group.isSystem = false ∧ group.userId = some user := by
  unfold ownGroup at h
  split at h
  · cases h
  · rename_i group' hgroup
    split at h <;> cases h
    rename_i hno
    rw [not_or, not_not, Bool.not_eq_true] at hno
    exact ⟨hgroup, hno⟩

theorem createTagGroup_kept (hs : s.Sound) {id : Uuid} {name : String} {color : Option String}
    (h : s.createTagGroup user id name color = .ok t) : Kept user s t := by
  obtain ⟨name, -, h⟩ := bind_eq_ok.mp h
  obtain ⟨color, -, h⟩ := bind_eq_ok.mp h
  dsimp only at h
  split at h
  case h_2 => cases h
  rename_i groups hpush
  cases h
  refine ⟨hs.of_groups (fun id group hgroup => ⟨group, ?_, rfl, rfl⟩) fun id group hgroup => ?_,
    { Frame.refl user s with groups := Table.others_push hpush rfl }⟩
  · have hne := Table.ne_of_push hpush hgroup
    rw [Table.get?_push hpush, if_neg hne, hgroup]
  · rw [Table.get?_push hpush] at hgroup
    split at hgroup
    · cases hgroup
      exact fun h => absurd h Bool.false_ne_true
    · exact hs.group id group hgroup

theorem updateTagGroup_kept (hs : s.Sound) {groupId : Uuid} {name color : Option String}
    (h : s.updateTagGroup user groupId name color = .ok t) : Kept user s t := by
  obtain ⟨group, hown, h⟩ := bind_eq_ok.mp h
  obtain ⟨name, -, h⟩ := bind_eq_ok.mp h
  obtain ⟨color, -, h⟩ := bind_eq_ok.mp h
  cases h
  obtain ⟨hgroup, -, huser⟩ := of_ownGroup hown
  refine ⟨hs.of_map_groups fun id => ?_, { Frame.refl user s with groups := ?_ }⟩
  · rw [Table.get?_modify]
    split
    · rw [Option.map_map]
      rfl
    · rfl
  · dsimp only
    refine Table.others_modify fun group' hgroup' => ?_
    cases hgroup.symm.trans hgroup'
    exact ⟨huser, huser⟩

omit [Unicode] in
theorem reorderTagGroups_kept (hs : s.Sound) (ids : List Uuid) : Kept user s (s.reorderTagGroups user ids) :=
  ⟨hs.of_map_groups fun _ => map_get?_reorder fun _ _ => rfl,
    { Frame.refl user s with groups := others_reorder fun _ _ => rfl }⟩

/-! ### Tags -/

omit [Unicode] in
theorem Sound.of_tags (h : s.Sound) {tags : Table Uuid Tag}
    (hkeep : ∀ id tag, s.tags.get? id = some tag → ∃ tag', tags.get? id = some tag' ∧ tag'.userId = tag.userId)
    (hgroup : ∀ id tag, tags.get? id = some tag → ∃ group, s.groups.get? tag.groupId = some group ∧
      (group.isSystem = false → group.userId = tag.userId)) : Sound { s with tags } where
  group := h.group
  template := h.template
  tag := hgroup
  link tradeId tagId hlink := by
    obtain ⟨trade, tag, htrade, htag, huser⟩ := h.link tradeId tagId hlink
    obtain ⟨tag', htag', huser'⟩ := hkeep tagId tag htag
    exact ⟨trade, tag', htrade, htag', huser' ▸ huser⟩

omit [Unicode] in
/-- Tags that stay whose they are, and where. -/
theorem Sound.of_map_tags (h : s.Sound) {tags : Table Uuid Tag}
    (hmap : ∀ id, (tags.get? id).map (fun tag => (tag.groupId, tag.userId)) = (s.tags.get? id).map fun tag => (tag.groupId, tag.userId)) :
    Sound { s with tags } := by
  refine h.of_tags (fun id tag htag => ?_) fun id tag htag => ?_
  · obtain ⟨tag', htag', hsame⟩ := Option.map_eq_some_iff.mp ((hmap id).trans (by rw [htag, Option.map_some]))
    exact ⟨tag', htag', (Prod.mk.inj hsame).2⟩
  · obtain ⟨tag', htag', hsame⟩ := Option.map_eq_some_iff.mp ((hmap id).symm.trans (by rw [htag, Option.map_some]))
    rw [← (Prod.mk.inj hsame).1, ← (Prod.mk.inj hsame).2]
    exact h.tag id tag' htag'

omit [Unicode] in
theorem of_ownTag {verb : String} {tagId : Uuid} {tag : Tag} (h : s.ownTag user verb tagId = .ok tag) :
    s.tags.get? tagId = some tag ∧ tag.userId = some user := by
  unfold ownTag at h
  split at h
  · cases h
  · rename_i tag' htag
    split at h <;> cases h
    rename_i hno
    exact ⟨htag, not_not.mp hno⟩

theorem createTag_kept (hs : s.Sound) {id groupId : Uuid} {name : String} (h : s.createTag user id groupId name = .ok t) :
    Kept user s t := by
  unfold createTag at h
  split at h
  · cases h
  rename_i group hgroup
  split at h
  · cases h
  rename_i hmay
  obtain ⟨name, -, h⟩ := bind_eq_ok.mp h
  dsimp only at h
  split at h
  case h_2 => cases h
  rename_i tags hpush
  cases h
  refine ⟨hs.of_tags (fun id' tag htag => ⟨tag, ?_, rfl⟩) fun id' tag htag => ?_,
    { Frame.refl user s with tags := Table.others_push hpush rfl }⟩
  · have hne := Table.ne_of_push hpush htag
    rw [Table.get?_push hpush, if_neg hne, htag]
  · rw [Table.get?_push hpush] at htag
    split at htag
    · cases htag
      refine ⟨group, hgroup, fun hno => ?_⟩
      rw [not_and, not_not] at hmay
      exact hmay hno
    · exact hs.tag id' tag htag

theorem updateTag_kept (hs : s.Sound) {tagId : Uuid} {name : String} (h : s.updateTag user tagId name = .ok t) : Kept user s t := by
  obtain ⟨tag, hown, h⟩ := bind_eq_ok.mp h
  obtain ⟨name, -, h⟩ := bind_eq_ok.mp h
  cases h
  obtain ⟨htag, huser⟩ := of_ownTag hown
  refine ⟨hs.of_map_tags fun id => ?_, { Frame.refl user s with tags := ?_ }⟩
  · rw [Table.get?_modify]
    split
    · rw [Option.map_map]
      rfl
    · rfl
  · dsimp only
    refine Table.others_modify fun tag' htag' => ?_
    cases htag.symm.trans htag'
    exact ⟨huser, huser⟩

omit [Unicode] in
theorem reorderTags_kept (hs : s.Sound) (ids : List Uuid) : Kept user s (s.reorderTags user ids) :=
  ⟨hs.of_map_tags fun _ => map_get?_reorder fun _ _ => rfl, { Frame.refl user s with tags := others_reorder fun _ _ => rfl }⟩

omit [Unicode] in
/-- Tags of the user are deleted, and with them their links, all of them to the user's trades. -/
theorem dropTags_kept (hs : s.Sound) {doomed : Uuid → Tag → Bool}
    (hdoomed : ∀ id tag, s.tags.get? id = some tag → doomed id tag → tag.userId = some user) : Kept user s (s.dropTags doomed) := by
  refine ⟨⟨hs.group, hs.template, fun id tag htag => ?_, fun tradeId tagId hlink => ?_⟩,
    { Frame.refl user s with
      tags := Table.others_filter fun id tag htag hno => ?_
      tradeTags := Table.others_filter fun link _ hlink hno => ?_ }⟩
  · dsimp only [dropTags] at htag
    rw [Table.get?_filter, Option.filter_eq_some_iff] at htag
    exact hs.tag id tag htag.1
  · dsimp only [dropTags] at hlink ⊢
    rw [Table.get?_filter, Option.filter_eq_some_iff] at hlink
    obtain ⟨trade, tag, htrade, htag, huser⟩ := hs.link tradeId tagId hlink.1
    refine ⟨trade, tag, htrade, ?_, huser⟩
    have hstays : doomed tagId tag = false := by simpa [htag] using hlink.2
    rw [Table.get?_filter, htag, Option.filter_some, hstays]
    rfl
  · exact hdoomed id tag (Table.get?_eq_some.mpr htag) (by simpa using hno)
  · obtain ⟨trade, tag, htrade, htag, huser⟩ := hs.link link.1 link.2 (Table.get?_eq_some.mpr hlink)
    have hgone : doomed link.2 tag := by simpa [htag] using hno
    have howner := hdoomed link.2 tag htag hgone
    rw [howner] at huser
    rw [linkOwner, htrade, Option.map_some]
    exact (huser.resolve_left (Option.some_ne_none user)).symm

omit [Unicode] in
theorem deleteTag_kept (hs : s.Sound) {tagId : Uuid} (h : s.deleteTag user tagId = .ok t) : Kept user s t := by
  obtain ⟨tag, hown, h⟩ := bind_eq_ok.mp h
  cases h
  obtain ⟨htag, huser⟩ := of_ownTag hown
  refine dropTags_kept hs fun id tag' htag' hdoomed => ?_
  cases of_decide_eq_true hdoomed
  cases htag.symm.trans htag'
  exact huser

omit [Unicode] in
theorem deleteTagGroup_kept (hs : s.Sound) {groupId : Uuid} (h : s.deleteTagGroup user groupId = .ok t) : Kept user s t := by
  obtain ⟨group, hown, h⟩ := bind_eq_ok.mp h
  cases h
  obtain ⟨hgroup, hno, huser⟩ := of_ownGroup hown
  have hdropped : Kept user s (s.dropTags fun _ tag => tag.groupId = groupId) := by
    refine dropTags_kept hs fun id tag htag hdoomed => ?_
    obtain ⟨group', hgroup', howner⟩ := hs.tag id tag htag
    rw [of_decide_eq_true hdoomed] at hgroup'
    cases hgroup.symm.trans hgroup'
    exact (howner hno).symm.trans huser
  obtain ⟨hsound, hframe⟩ := hdropped
  refine ⟨⟨fun id group' hgroup' => ?_, hsound.template, fun id tag htag => ?_, hsound.link⟩,
    { hframe with groups := Table.others_filter fun id group' hgroup' hgone => ?_ }⟩
  · rw [Table.get?_remove] at hgroup'
    split at hgroup'
    · cases hgroup'
    · exact hs.group id group' hgroup'
  · have hother : tag.groupId ≠ groupId := by
      have hstays := (Option.filter_eq_some_iff.mp (Table.get?_filter.symm.trans htag)).2
      simpa using hstays
    obtain ⟨group', hgroup', howner⟩ := hsound.tag id tag htag
    exact ⟨group', by rw [Table.get?_remove, if_neg hother]; exact hgroup', howner⟩
  · cases (show id = groupId by simpa using hgone)
    cases hgroup.symm.trans (Table.get?_eq_some.mpr hgroup')
    exact huser

/-! ### Trades -/

omit [Unicode] in
theorem of_validateTradeOwnership {tradeId : Uuid} {trade : JournalTrade} (h : s.validateTradeOwnership user tradeId = .ok trade) :
    s.trades.get? tradeId = some trade ∧ trade.userId = user := by
  unfold validateTradeOwnership at h
  split at h
  · cases h
  · rename_i trade' htrade
    split at h <;> cases h
    rename_i hno
    exact ⟨htrade, not_not.mp hno⟩

omit [Unicode] in
theorem of_checkTags {uuidText : Uuid → String} {tagIds : List Uuid} (h : s.checkTags user uuidText tagIds = .ok ()) :
    ∀ tagId ∈ tagIds, ∃ tag, s.tags.get? tagId = some tag ∧ (tag.userId = none ∨ tag.userId = some user) := by
  induction tagIds with
  | nil => exact fun _ hmem => absurd hmem List.not_mem_nil
  | cons tagId rest ih =>
    unfold checkTags at h
    split at h
    · cases h
    · rename_i tag htag
      split at h
      · cases h
      · rename_i hno
        intro tagId' hmem
        rcases List.mem_cons.mp hmem with rfl | hmem
        · exact ⟨tag, htag, by rwa [← not_or, not_not] at hno⟩
        · exact ih h tagId' hmem

omit [Unicode] in
theorem updateTradeTags_kept (hs : s.Sound) {uuidText : Uuid → String} {tradeId : Uuid} {tagIds : List Uuid}
    (h : s.updateTradeTags user uuidText tradeId tagIds = .ok t) : Kept user s t := by
  obtain ⟨trade, hown, h⟩ := bind_eq_ok.mp h
  obtain ⟨⟨⟩, hcheck, h⟩ := bind_eq_ok.mp h
  split at h
  case isFalse => cases h
  cases h
  obtain ⟨htrade, huser⟩ := of_validateTradeOwnership hown
  have hlink (link : Uuid × Uuid) (he : link.1 = tradeId) : s.linkOwner link () = some user := by
    rw [linkOwner, he, htrade, Option.map_some, huser]
  refine ⟨⟨hs.group, hs.template, hs.tag, fun tradeId' tagId hlink' => ?_⟩, { Frame.refl user s with tradeTags := ?_ }⟩
  · rcases Table.get?_addAll_cases hlink' with hold | hnew
    · rw [Table.get?_filter, Option.filter_eq_some_iff] at hold
      exact hs.link tradeId' tagId hold.1
    · obtain ⟨tagId', hmem, he⟩ := List.mem_map.mp hnew
      cases he
      obtain ⟨tag, htag, hmay⟩ := of_checkTags hcheck tagId hmem
      exact ⟨trade, tag, htrade, htag, huser ▸ hmay⟩
  · -- all that is cleared and added are links of the trade
    dsimp only
    rw [Table.others, Table.select_addAll, ← Table.others, Table.others_filter]
    · exact fun link _ _ hcleared => hlink link (by simpa using hcleared)
    · intro e he
      obtain ⟨tagId, -, rfl⟩ := List.mem_map.mp he
      exact decide_eq_false (not_not.mpr (hlink (tradeId, tagId) rfl))

/-! ### Setups -/

omit [Unicode] in
theorem ensureSetup_kept (hs : s.Sound) {id : Uuid} {name : String} (h : s.ensureSetup user id name = .ok t) :
    Kept user s t ∧ t.trades = s.trades := by
  unfold ensureSetup at h
  split at h
  · cases h
    exact ⟨⟨hs, Frame.refl user s⟩, rfl⟩
  · dsimp only at h
    split at h
    · rename_i setups hpush
      cases h
      exact ⟨⟨⟨hs.group, hs.template, hs.tag, hs.link⟩, { Frame.refl user s with setups := Table.others_push hpush rfl }⟩, rfl⟩
    · cases h

theorem createSetup_kept (hs : s.Sound) {id : Uuid} {name : String} (h : s.createSetup user id name = .ok t) : Kept user s t := by
  obtain ⟨name, -, h⟩ := bind_eq_ok.mp h
  exact (ensureSetup_kept hs h).1

omit [Unicode] in
theorem deleteSetup_kept (hs : s.Sound) {setupId : Uuid} (h : s.deleteSetup user setupId = .ok t) : Kept user s t := by
  unfold deleteSetup at h
  split at h
  · cases h
  rename_i setup hsetup
  split at h <;> cases h
  rename_i hown
  refine ⟨⟨hs.group, hs.template, hs.tag, hs.link⟩,
    { Frame.refl user s with setups := Table.others_filter fun id setup' hsetup' hgone => ?_ }⟩
  cases (show id = setupId by simpa using hgone)
  cases hsetup.symm.trans (Table.get?_eq_some.mpr hsetup')
  rw [not_not.mp hown]

omit [Unicode] in
theorem reorderSetups_kept (hs : s.Sound) (ids : List Uuid) : Kept user s (s.reorderSetups user ids) := by
  refine ⟨⟨hs.group, hs.template, hs.tag, hs.link⟩, { Frame.refl user s with setups := ?_ }⟩
  dsimp only [reorderSetups]
  exact others_reorder fun _ _ => rfl

omit [Unicode] in
/-- The setup of a trade of the user. -/
theorem setTradeSetup_kept (hs : s.Sound) {tradeId : Uuid} {trade : JournalTrade} (htrade : s.trades.get? tradeId = some trade)
    (huser : trade.userId = user) (name : Option String) :
    Kept user s { s with trades := s.trades.modify tradeId fun trade => { trade with setup := name } } := by
  have howner (id : Uuid) : ((s.trades.modify tradeId fun trade => { trade with setup := name }).get? id).map JournalTrade.userId =
      (s.trades.get? id).map JournalTrade.userId := by
    rw [Table.get?_modify]
    split
    · rw [Option.map_map]
      rfl
    · rfl
  refine ⟨⟨hs.group, hs.template, hs.tag, fun tradeId' tagId hlink => ?_⟩, { Frame.refl user s with trades := ?_, owner := howner }⟩
  · obtain ⟨trade', tag, htrade', htag, hmay⟩ := hs.link tradeId' tagId hlink
    obtain ⟨trade'', htrade'', he⟩ := Option.map_eq_some_iff.mp ((howner tradeId').trans (by rw [htrade', Option.map_some]))
    exact ⟨trade'', tag, htrade'', htag, he ▸ hmay⟩
  · dsimp only
    refine Table.others_modify fun trade' htrade' => ?_
    cases htrade.symm.trans htrade'
    rw [huser]
    exact ⟨rfl, rfl⟩

theorem updateTradeSetup_kept (hs : s.Sound) {id tradeId : Uuid} {setup : Option String}
    (h : s.updateTradeSetup user id tradeId setup = .ok t) : Kept user s t := by
  obtain ⟨trade, hown, h⟩ := bind_eq_ok.mp h
  obtain ⟨s', hs', h⟩ := bind_eq_ok.mp h
  cases h
  obtain ⟨htrade, huser⟩ := of_validateTradeOwnership hown
  obtain ⟨⟨hsound, hframe⟩, htrades⟩ : Kept user s s' ∧ s'.trades = s.trades := by
    generalize (setup.map Unicode.strip).filter (· ≠ "") = name at hs'
    cases name with
    | none => cases hs'; exact ⟨⟨hs, Frame.refl user s⟩, rfl⟩
    | some name =>
      rw [Option.elim_some] at hs'
      split at hs'
      · cases hs'
      · exact ensureSetup_kept hs hs'
  obtain ⟨hsound', hframe'⟩ := setTradeSetup_kept hsound (htrades.symm ▸ htrade) huser ((setup.map Unicode.strip).filter (· ≠ ""))
  refine ⟨hsound', ?_⟩
  exact { hframe with
    trades := hframe'.trades.trans hframe.trades
    owner := fun id => (hframe'.owner id).trans (hframe.owner id) }

/-! ### Templates -/

omit [Unicode] in
theorem createTemplate_kept (hs : s.Sound) {id : Uuid} {name : String} {templateType : JournalTemplateType} {questions : List String}
    (h : s.createTemplate user id name templateType questions = .ok t) : Kept user s t := by
  unfold createTemplate at h
  split at h
  case h_2 => cases h
  rename_i templates hpush
  cases h
  refine ⟨⟨hs.group, fun id' template htemplate => ?_, hs.tag, hs.link⟩,
    { Frame.refl user s with templates := Table.others_push hpush rfl }⟩
  rw [Table.get?_push hpush] at htemplate
  split at htemplate
  · cases htemplate
    exact fun h => absurd h Bool.false_ne_true
  · exact hs.template id' template htemplate

omit [Unicode] in
theorem deleteTemplate_kept (hs : s.Sound) {templateId : Uuid} (h : s.deleteTemplate user templateId = .ok t) : Kept user s t := by
  unfold deleteTemplate at h
  split at h
  · cases h
  rename_i template htemplate
  split at h <;> cases h
  rename_i hown
  rw [not_or, not_not] at hown
  refine ⟨⟨hs.group, fun id template' htemplate' => ?_, hs.tag, hs.link⟩,
    { Frame.refl user s with templates := Table.others_filter fun id template' htemplate' hgone => ?_ }⟩
  · rw [Table.get?_remove] at htemplate'
    split at htemplate'
    · cases htemplate'
    · exact hs.template id template' htemplate'
  · cases (show id = templateId by simpa using hgone)
    cases (Option.filter_eq_some_iff.mp htemplate).1.symm.trans (Table.get?_eq_some.mpr htemplate')
    exact hown.2

/-! ## Any request -/

theorem request_kept (hs : s.Sound) {uuidText : Uuid → String} {r : LabelRequest} (h : s.request uuidText user r = .ok t) :
    Kept user s t := by
  cases r with
  | createTagGroup id name color => exact createTagGroup_kept hs h
  | updateTagGroup groupId name color => exact updateTagGroup_kept hs h
  | deleteTagGroup groupId => exact deleteTagGroup_kept hs h
  | reorderTagGroups ids => cases h; exact reorderTagGroups_kept hs ids
  | createTag id groupId name => exact createTag_kept hs h
  | updateTag tagId name => exact updateTag_kept hs h
  | deleteTag tagId => exact deleteTag_kept hs h
  | reorderTags ids => cases h; exact reorderTags_kept hs ids
  | updateTradeTags tradeId tagIds => exact updateTradeTags_kept hs h
  | createSetup id name => exact createSetup_kept hs h
  | deleteSetup setupId => exact deleteSetup_kept hs h
  | reorderSetups ids => cases h; exact reorderSetups_kept hs ids
  | updateTradeSetup id tradeId setup => exact updateTradeSetup_kept hs h
  | createTemplate id name templateType questions => exact createTemplate_kept hs h
  | deleteTemplate templateId => exact deleteTemplate_kept hs h

theorem step_kept (hs : s.Sound) {uuidText : Uuid → String} {e : UserId × LabelRequest} (h : s.step uuidText e = some t) :
    Kept e.1 s t := by
  cases h
  cases hr : s.request uuidText e.1 e.2 with
  | error error => exact ⟨hs, Frame.refl e.1 s⟩
  | ok t => exact request_kept hs hr

/-! ## What another user sees -/

/-- What a user sees of its configuration. -/
structure SameView (user : UserId) (s t : Config) : Prop where
  tagsConfig : t.listUserTagsConfig user = s.listUserTagsConfig user
  trade : ∀ tradeId, t.validateTradeOwnership user tradeId = s.validateTradeOwnership user tradeId
  tradeTags : ∀ collate tradeId, t.getTradeTags user collate tradeId = s.getTradeTags user collate tradeId
  setups : t.listSetups user = s.listSetups user
  templates : ∀ templateType, t.listTemplates user templateType = s.listTemplates user templateType

variable {other : UserId}

omit [Unicode] in
theorem Frame.trade (h : Frame other s t) (hne : other ≠ user) {tradeId : Uuid} {trade : JournalTrade} (huser : trade.userId = user) :
    t.trades.get? tradeId = some trade ↔ s.trades.get? tradeId = some trade := by
  have hselect := Table.select_of_others h.trades (p := fun id trade' => decide (id = tradeId ∧ trade'.userId = user))
    fun id trade' _ hp => by
    rw [(of_decide_eq_true hp).2]
    exact fun he => hne (Option.some.inj he).symm
  have hmem (table : Table Uuid JournalTrade) :
      (tradeId, trade) ∈ table.select (fun id trade' => decide (id = tradeId ∧ trade'.userId = user)) ↔
      table.get? tradeId = some trade := by simp [Table.mem_select, huser]
  rw [← hmem, ← hmem, hselect]

omit [Unicode] in
theorem Frame.validateTradeOwnership_eq (h : Frame other s t) (hne : other ≠ user) (tradeId : Uuid) :
    t.validateTradeOwnership user tradeId = s.validateTradeOwnership user tradeId := by
  have howner := h.owner tradeId
  unfold validateTradeOwnership
  cases hs : s.trades.get? tradeId with
  | none =>
    rw [hs] at howner
    rw [Option.map_eq_none_iff.mp howner]
  | some trade =>
    rw [hs, Option.map_some] at howner
    obtain ⟨trade', ht, he⟩ := Option.map_eq_some_iff.mp howner
    rw [ht]
    dsimp only
    by_cases huser : trade.userId = user
    · cases ht.symm.trans ((h.trade hne huser).mpr hs)
      rfl
    · rw [if_pos huser, if_pos (he ▸ huser)]

omit [Unicode] in
/-- A link of the user's own trade. -/
theorem Frame.get?_tradeTags (h : Frame other s t) (hne : other ≠ user) {trade : JournalTrade} {tradeId : Uuid}
    (htrade : s.trades.get? tradeId = some trade) (huser : trade.userId = user) (tagId : Uuid) :
    t.tradeTags.get? (tradeId, tagId) = s.tradeTags.get? (tradeId, tagId) := by
  have hselect := Table.select_of_others h.tradeTags (p := fun link _ => decide (link = (tradeId, tagId))) fun link _ _ hp => by
    rw [of_decide_eq_true hp, linkOwner, htrade, Option.map_some, huser]
    exact fun he => hne (Option.some.inj he).symm
  have hmem (table : Table (Uuid × Uuid) Unit) : ((tradeId, tagId), ()) ∈ table.select (fun link _ => decide (link = (tradeId, tagId))) ↔
      table.get? (tradeId, tagId) = some () := by simp [Table.mem_select]
  refine Option.ext fun link => ?_
  cases link
  rw [← hmem, ← hmem, hselect]

omit [Unicode] in
theorem Frame.getTradeTags_eq (hs : s.Sound) (ht : t.Sound) (h : Frame other s t) (hne : other ≠ user)
    (collate : String → String → Bool) (tradeId : Uuid) :
    t.getTradeTags user collate tradeId = s.getTradeTags user collate tradeId := by
  rw [getTradeTags, getTradeTags, h.validateTradeOwnership_eq hne]
  cases hv : s.validateTradeOwnership user tradeId with
  | error error => rfl
  | ok trade =>
    obtain ⟨htrade, huser⟩ := of_validateTradeOwnership hv
    -- the tags of the user's own trade are the user's and the system's
    have hnot (r : Config) (hr : r.Sound) (htrade : r.trades.get? tradeId = some trade) (tagId : Uuid) (tag : Tag)
        (htag : r.tags.get? tagId = some tag) (hlink : (r.tradeTags.get? (tradeId, tagId)).isSome) : tag.userId ≠ some other := by
      obtain ⟨⟨⟩, hlink⟩ := Option.isSome_iff_exists.mp hlink
      obtain ⟨trade', tag', htrade', htag', hmay⟩ := hr.link tradeId tagId hlink
      cases htrade.symm.trans htrade'
      cases htag.symm.trans htag'
      rintro he
      rcases hmay with hnone | hown
      · cases he.symm.trans hnone
      · exact hne (Option.some.inj (he.symm.trans (hown.trans (by rw [huser]))))
    have hlinks := h.get?_tradeTags hne htrade huser
    simp only [hlinks]
    rw [Table.select_of_others h.tags]
    rintro tagId tag (htag | htag) hlink
    · exact hnot s hs htrade tagId tag htag hlink
    · exact hnot t ht ((h.trade hne huser).mpr htrade) tagId tag htag (hlinks tagId ▸ hlink)

omit [Unicode] in
theorem Frame.listUserTagsConfig_eq (hs : s.Sound) (ht : t.Sound) (h : Frame other s t) (hne : other ≠ user) :
    t.listUserTagsConfig user = s.listUserTagsConfig user := by
  have hgroups : t.groups.select (fun _ group => group.isSystem || group.userId = some user) =
      s.groups.select fun _ group => group.isSystem || group.userId = some user := by
    refine Table.select_of_others h.groups fun id group hgroup hsees he => ?_
    rcases Bool.or_eq_true_iff.mp hsees with hsystem | hown
    · have hnone : group.userId = none := hgroup.elim (hs.group id group · hsystem) (ht.group id group · hsystem)
      cases he.symm.trans hnone
    · exact hne (Option.some.inj (he.symm.trans (of_decide_eq_true hown)))
  have htags : t.tags.select (fun _ tag => tag.userId = none || tag.userId = some user) =
      s.tags.select fun _ tag => tag.userId = none || tag.userId = some user := by
    refine Table.select_of_others h.tags fun id tag _ hsees he => ?_
    rcases Bool.or_eq_true_iff.mp hsees with hnone | hown
    · cases he.symm.trans (of_decide_eq_true hnone)
    · exact hne (Option.some.inj (he.symm.trans (of_decide_eq_true hown)))
  rw [listUserTagsConfig, listUserTagsConfig, hgroups, htags]

omit [Unicode] in
theorem Frame.listSetups_eq (h : Frame other s t) (hne : other ≠ user) : t.listSetups user = s.listSetups user := by
  rw [listSetups, listSetups, Table.select_of_others h.setups fun id setup _ hsees he => ?_]
  exact hne ((Option.some.inj he).symm.trans (of_decide_eq_true hsees))

omit [Unicode] in
theorem Frame.listTemplates_eq (hs : s.Sound) (ht : t.Sound) (h : Frame other s t) (hne : other ≠ user)
    (templateType : Option JournalTemplateType) : t.listTemplates user templateType = s.listTemplates user templateType := by
  rw [listTemplates, listTemplates, Table.select_of_others h.templates fun id template htemplate hsees he => ?_]
  rcases Bool.or_eq_true_iff.mp (Bool.and_eq_true_iff.mp hsees).1 with hsystem | hown
  · have hnone : template.ownerId = none := htemplate.elim (hs.template id template · hsystem) (ht.template id template · hsystem)
    cases he.symm.trans hnone
  · exact hne (Option.some.inj (he.symm.trans (of_decide_eq_true hown)))

omit [Unicode] in
theorem sameView_of_frame (hs : s.Sound) (ht : t.Sound) (h : Frame other s t) (hne : other ≠ user) : SameView user s t where
  tagsConfig := h.listUserTagsConfig_eq hs ht hne
  trade := h.validateTradeOwnership_eq hne
  tradeTags := h.getTradeTags_eq hs ht hne
  setups := h.listSetups_eq hne
  templates := h.listTemplates_eq hs ht hne

/-- The system's groups, tags and templates, as they are seeded, and trades of users. -/
structure Seeded (s : Config) : Prop where
  group : ∀ e ∈ s.groups.entries, e.2.userId = none
  tag : ∀ e ∈ s.tags.entries, e.2.userId = none ∧ (s.groups.get? e.2.groupId).isSome
  tradeTags : s.tradeTags.entries = []
  template : ∀ e ∈ s.templates.entries, e.2.ownerId = none

omit [Unicode] in
theorem Seeded.sound (h : s.Seeded) : s.Sound where
  group _ _ hgroup _ := h.group _ (Table.get?_eq_some.mp hgroup)
  template _ _ htemplate _ := h.template _ (Table.get?_eq_some.mp htemplate)
  tag id tag htag := by
    obtain ⟨hnone, hgroup⟩ := h.tag _ (Table.get?_eq_some.mp htag)
    obtain ⟨group, hgroup⟩ := Option.isSome_iff_exists.mp hgroup
    exact ⟨group, hgroup, fun _ => (h.group _ (Table.get?_eq_some.mp hgroup)).trans hnone.symm⟩
  link tradeId tagId hlink := by
    have hmem := Table.get?_eq_some.mp hlink
    rw [h.tradeTags] at hmem
    cases hmem

theorem sound {s₀ : Config} (h₀ : s₀.Seeded) {uuidText : Uuid → String} {ok : Config → UserId × LabelRequest → Prop}
    (h : Reach (step uuidText) ok s₀ s) : s.Sound :=
  h.invariant h₀.sound fun _ _ _ hs _ hstep => (step_kept hs hstep).1

/-- After any requests, what a user sees does not change with any requests of others. -/
theorem visible_run {s₀ : Config} (h₀ : s₀.Seeded) {uuidText : Uuid → String} (hs : Reach (step uuidText) always s₀ s)
    (ht : Reach (step uuidText) (fun _ e => e.1 ≠ user) s t) : SameView user s t := by
  have hsound := sound h₀ hs
  refine (ht.invariant (P := fun t => t.Sound ∧ SameView user s t) ⟨hsound, ⟨rfl, fun _ => rfl, fun _ _ => rfl, rfl, fun _ => rfl⟩⟩ ?_).2
  rintro t e u ⟨hsound, hview⟩ hne hstep
  obtain ⟨hsound', hframe⟩ := step_kept hsound hstep
  have hview' := sameView_of_frame hsound hsound' hframe hne
  exact ⟨hsound', {
    tagsConfig := hview'.tagsConfig.trans hview.tagsConfig
    trade := fun tradeId => (hview'.trade tradeId).trans (hview.trade tradeId)
    tradeTags := fun collate tradeId => (hview'.tradeTags collate tradeId).trans (hview.tradeTags collate tradeId)
    setups := hview'.setups.trans hview.setups
    templates := fun templateType => (hview'.templates templateType).trans (hview.templates templateType) }⟩

/-- One group and one tag of the system, and a trade of each of two users. -/
def twoUsers : Config where
  groups := (∅ : Table Uuid TagGroup).add 10 { userId := none, name := "Timeframe", color := none, isSystem := true, position := 0 }
  tags := (∅ : Table Uuid Tag).add 11 { groupId := 10, userId := none, name := "H1", isSystem := true, position := 0 }
  trades := ((∅ : Table Uuid JournalTrade).add 1 { userId := 101 }).add 2 { userId := 102 }

omit [Unicode] in
theorem seeded_twoUsers : twoUsers.Seeded := ⟨by decide, by decide, rfl, by decide⟩

omit [Unicode] in
/-- Both users add tags to the system's group, and one wants to delete the other's. -/
theorem visible_run_twoUsers :
    let _ := Unicode.ascii
    ∃ s t, Reach (step fun _ => "") always twoUsers s ∧ Reach (step fun _ => "") (fun _ e => e.1 ≠ 101) s t ∧
      s.tags.entries.length = 2 ∧ t.tags.entries.length = 3 ∧ SameView 101 s t := by
  intro _
  have hrun : ((run (step fun _ => "") twoUsers [(101, .createTag 12 10 "H4"), (101, .updateTradeTags 1 [11, 12])]).bind fun s =>
      (runIf (step fun _ => "") (fun _ e => e.1 ≠ 101) s
        [(102, .createTag 13 10 "D1"), (102, .deleteTag 12), (102, .updateTradeTags 2 [11, 13]), (102, .updateTradeTags 1 []),
          (102, .reorderTags [12, 13, 11])]).map fun t => (s.tags.entries.length, t.tags.entries.length)) = some (2, 3) := by
    decide +kernel
  obtain ⟨s, hs, hrun⟩ := Option.bind_eq_some_iff.mp hrun
  obtain ⟨t, ht, hlength⟩ := Option.map_eq_some_iff.mp hrun
  obtain ⟨hlength, hlength'⟩ := Prod.mk.inj hlength
  exact ⟨s, t, .of_run hs, .of_runIf ht, hlength, hlength', visible_run seeded_twoUsers (.of_run hs) (.of_runIf ht)⟩

end

end Config

end Journal

end SignalSync
