import OpenDefender.Admin.Scopes
import OpenDefender.Engine.Overrides

/-!
The override handlers of the admin API (`services/admin-api/src/main.rs`) as far as they change the
`overrides` table: what the statements of each call read, what they write, and the scopes the call
invalidates.

Each handler is cut at its transaction: a first part reads the table, a second one writes it. Between
the two another call may commit. The import collects its writes in a transaction and is modelled by
the list of them.
-/

namespace OpenDefender.Admin

open Lib Text Engine

/-- A scope: its type and its value. -/
abbrev Scope := String × String

/-- The scope of a row. -/
def scopeOf (row : OverrideRow) : Scope :=
  (row.scopeType, row.scopeValue)

/-- The order of the handlers' queries: newest first. -/
def latestFirst (a b : OverrideRow) : Prop :=
  b.updatedAt < a.updatedAt ∨ (b.updatedAt = a.updatedAt ∧
    (b.createdAt < a.createdAt ∨ (b.createdAt = a.createdAt ∧ b.id ≤ a.id)))

instance : DecidableRel latestFirst := fun _ _ => inferInstanceAs (Decidable (_ ∨ _))

/-! ### Create, update, delete -/

/-- `OverrideUpsertRequest`. -/
structure OverrideUpsertRequest where
  scopeType : String
  scopeValue : String
  action : String
  reason : Option String
  createdBy : Option String
  expiresAt : Option Nat
  status : Option String

/-- `ValidatedOverridePayload`. -/
structure ValidatedOverridePayload where
  scopeType : String
  scopeValue : String
  action : String
  reason : Option String
  createdBy : Option String
  expiresAt : Option Nat
  status : Option String

/-- `validate_override_payload`. -/
def validateOverridePayload (payload : OverrideUpsertRequest) :
    Except ApiError ValidatedOverridePayload := do
  let scopeType ← normalizeScopeType payload.scopeType
  let scopeValue ← normalizeScopeValue scopeType payload.scopeValue
  let action ← normalizeAction payload.action
  let status ← payload.status.mapM normalizeStatus
  return { scopeType, scopeValue, action, reason := normalizeOptionalField payload.reason,
           createdBy := normalizeOptionalField payload.createdBy, expiresAt := payload.expiresAt,
           status }

/-- The active rows of a scope, as `create_override` selects them. -/
def activeIds (table : List OverrideRow) (scope : Scope) : List Uuid :=
  ((table.filter fun row => scopeOf row = scope && row.status == "active").insertionSort
    latestFirst).map (·.id)

/-- `UPDATE overrides SET status = 'revoked' … WHERE id = ANY(ids)`. -/
def revoke (table : List OverrideRow) (ids : List Uuid) (now : Nat) : List OverrideRow :=
  table.map fun row =>
    if row.id ∈ ids then { row with status := "revoked", updatedAt := now } else row

/-- The row `create_override` inserts. -/
def newRow (v : ValidatedOverridePayload) (status : String) (id : Uuid) (now : Nat) : OverrideRow :=
  { id, scopeType := v.scopeType, scopeValue := v.scopeValue, action := v.action, reason := v.reason,
    createdBy := v.createdBy, expiresAt := v.expiresAt, status, createdAt := now, updatedAt := now }

/-- The writes of `create_override`, given the active rows it has selected: the table afterwards and
the scope of the row that was written. The first active row is updated and the others are revoked;
without one a row is inserted. The updated row keeps the scope it has by now. -/
def createOverride (table : List OverrideRow) (v : ValidatedOverridePayload) (selected : List Uuid)
    (freshId : Uuid) (now : Nat) : Option (List OverrideRow × Scope) :=
  let status := v.status.getD "active"
  let inserted := some (table ++ [newRow v status freshId now], (v.scopeType, v.scopeValue))
  if eqIgnoreAsciiCase status "active" then
    match selected with
    | [] => inserted
    | activeId :: duplicates =>
      let table := revoke table duplicates now
      match table.find? fun row => row.id = activeId with
      | none => none
      | some row =>
        some (table.map fun r =>
          if r.id = activeId then
            { r with action := v.action, reason := v.reason, createdBy := v.createdBy,
                     expiresAt := v.expiresAt, status, updatedAt := now }
          else r, scopeOf row)
  else inserted

/-- The row a call finds by its id. -/
def findOverride (table : List OverrideRow) (id : Uuid) : Option OverrideRow :=
  table.find? fun row => row.id = id

/-- The writes of `update_override`, given the status it has read. Other active rows of the new scope
are revoked. -/
def updateOverride (table : List OverrideRow) (id : Uuid) (v : ValidatedOverridePayload)
    (existingStatus : String) (now : Nat) : List OverrideRow :=
  let nextStatus := v.status.getD existingStatus
  let others := (table.filter fun row =>
    scopeOf row = (v.scopeType, v.scopeValue) && row.status == "active" && row.id ≠ id).map (·.id)
  let table := if eqIgnoreAsciiCase nextStatus "active" then revoke table others now else table
  table.map fun row =>
    if row.id = id then
      { row with scopeType := v.scopeType, scopeValue := v.scopeValue, action := v.action,
                 reason := v.reason, createdBy := v.createdBy, expiresAt := v.expiresAt,
                 status := nextStatus, updatedAt := now }
    else row

/-- `override_invalidation_scopes`. -/
def overrideInvalidationScopes (previous updated : Scope) : List Scope :=
  if previous ≠ updated then [previous, updated] else [previous]

/-- `DELETE FROM overrides WHERE id = …`. -/
def deleteOverride (table : List OverrideRow) (id : Uuid) : List OverrideRow :=
  table.filter fun row => row.id ≠ id

/-! ### Import -/

/-- `OverrideImportMode`. -/
inductive OverrideImportMode where
  | merge
  | replace
  deriving DecidableEq, Repr

/-- `normalize_override_import_mode`. -/
def normalizeOverrideImportMode (value : Option String) : Except ApiError OverrideImportMode :=
  match toAsciiLowercase (trim (value.getD "merge")) with
  | "merge" => .ok .merge
  | "replace" => .ok .replace
  | _ => .error (validationError "mode must be merge|replace")

/-- `OverrideImportInvalidLine`. -/
structure OverrideImportInvalidLine where
  lineNumber : Nat
  value : String
  error : String
  deriving DecidableEq, Repr

/-- `ParsedOverrideImport`. -/
structure ParsedOverrideImport where
  totalLines : Nat
  scopes : List String
  duplicates : Nat
  invalidLines : List OverrideImportInvalidLine
  deriving DecidableEq, Repr

/-- One line of `parse_override_exchange_lines`. -/
def parseOverrideLine (parsed : ParsedOverrideImport) (rawLine : String) : ParsedOverrideImport :=
  let parsed := { parsed with totalLines := parsed.totalLines + 1 }
  let trimmed := trim rawLine
  if trimmed.isEmpty || (stripPrefix "#" trimmed).isSome then parsed
  else
    match normalizeDomainScope trimmed with
    | .ok scopeValue =>
      if scopeValue ∈ parsed.scopes then { parsed with duplicates := parsed.duplicates + 1 }
      else { parsed with scopes := parsed.scopes ++ [scopeValue] }
    | .error err =>
      { parsed with invalidLines := parsed.invalidLines ++
          [{ lineNumber := parsed.totalLines, value := trimmed, error := err.message }] }

/-- `parse_override_exchange_lines`. -/
def parseOverrideExchangeLines (content : String) : ParsedOverrideImport :=
  (lines content).foldl parseOverrideLine
    { totalLines := 0, scopes := [], duplicates := 0, invalidLines := [] }

/-- What `import_overrides` keeps of the rows it has read: the active row of each scope with its
action, the newest row of each scope and action, and the further active rows. -/
structure ImportView where
  activeByScope : Assoc String (Uuid × String)
  latestByScopeAction : Assoc (String × String) Uuid
  duplicateActiveIds : List Uuid

/-- One row in the loop that builds the view. -/
def ImportView.addRow (view : ImportView) (row : OverrideRow) : ImportView :=
  let view := { view with latestByScopeAction :=
    view.latestByScopeAction.setIfAbsent (row.scopeValue, row.action) row.id }
  if eqIgnoreAsciiCase row.status "active" then
    if (view.activeByScope.get row.scopeValue).isSome then
      { view with duplicateActiveIds := view.duplicateActiveIds ++ [row.id] }
    else
      { view with activeByScope :=
          view.activeByScope.set row.scopeValue (row.id, row.action) }
  else view

/-- The view of the domain rows, newest first. The query sorts by scope before; what is kept does not
depend on it. -/
def importView (table : List OverrideRow) : ImportView :=
  ((table.filter fun row => row.scopeType == "domain").insertionSort latestFirst).foldl
    ImportView.addRow { activeByScope := .empty, latestByScopeAction := .empty,
                        duplicateActiveIds := [] }

/-- A write of the import's transaction. -/
inductive OverrideWrite where
  | revoke (ids : List Uuid)
  | activate (id : Uuid)
  | insert (id : Uuid) (scopeValue : String)
  | delete (ids : List Uuid)
  deriving DecidableEq, Repr

/-- The action and the actor of an import, and the time of its transaction. -/
structure ImportContext where
  action : String
  actor : String
  now : Nat

/-- The text every imported row gets as its reason. -/
def importReason : String := "Imported via Allow / Deny Exchange"

variable (ctx : ImportContext)

/-- The effect of a write. -/
def OverrideWrite.apply (table : List OverrideRow) : OverrideWrite → List OverrideRow
  | .revoke ids => Admin.revoke table ids ctx.now
  | .activate id => table.map fun row =>
    if row.id = id then
      { row with action := ctx.action, reason := some importReason, createdBy := some ctx.actor,
                 expiresAt := none, status := "active", updatedAt := ctx.now }
    else row
  | .insert id scopeValue => table ++
      [{ id, scopeType := "domain", scopeValue, action := ctx.action, reason := some importReason,
         createdBy := some ctx.actor, status := "active", createdAt := ctx.now,
         updatedAt := ctx.now }]
  | .delete ids => table.filter fun row => row.id ∉ ids

/-- The table after the writes. -/
def applyWrites (table : List OverrideRow) (writes : List OverrideWrite) : List OverrideRow :=
  writes.foldl (OverrideWrite.apply ctx) table

/-- The write of one scope, and the view afterwards. -/
def importScope (view : ImportView) (scopeValue : String) (freshId : Uuid) : OverrideWrite × ImportView :=
  let known := ((view.activeByScope.get scopeValue).map Prod.fst).or
    (view.latestByScopeAction.get (scopeValue, ctx.action))
  let id := known.getD freshId
  (match known with
    | some id => .activate id
    | none => .insert freshId scopeValue,
    { view with
      activeByScope := view.activeByScope.set scopeValue (id, ctx.action)
      latestByScopeAction := view.latestByScopeAction.set (scopeValue, ctx.action) id })

/-- The writes of the scopes, each with its own fresh id. -/
def importScopes (ctx : ImportContext) : ImportView → List (String × Uuid) → List OverrideWrite
  | _, [] => []
  | view, (scopeValue, freshId) :: rest =>
    let (write, view) := importScope ctx view scopeValue freshId
    write :: importScopes ctx view rest

/-- The writes of the transaction before the removal. -/
def importWrites (view : ImportView) (scopes : List (String × Uuid)) : List OverrideWrite :=
  (if view.duplicateActiveIds.isEmpty then [] else [.revoke view.duplicateActiveIds]) ++
    importScopes ctx view scopes

/-- The rows an import in mode `replace` deletes: active ones of the action whose scope is not
imported. -/
def removedRows (table : List OverrideRow) (scopes : List String) : List OverrideRow :=
  table.filter fun row => row.scopeType == "domain" && row.action == ctx.action &&
    row.status == "active" && row.scopeValue ∉ scopes

end OpenDefender.Admin
