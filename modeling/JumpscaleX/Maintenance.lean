import JumpscaleX.BCDBModel

/-!
# Maintenance of the index

`destroy` and `index_rebuild` of a model, and `index_rebuild` of the whole
database.  Removing the file of the index removes all tables at once.
-/

namespace JumpscaleX

open Fallible Stateful

namespace BCDBModel

/-- `index.destroy`: the rows of a nid go, or the whole table when none is
given. -/
def indexDestroy (url : Url) (nid : Option Nat) : BCDBM Unit :=
  advance (fun bcdb => do
    let model ← bcdb.model url
    bcdb.writeTable model (fun table => .ok (
      if nid.getD 0 ≠ 0 then table.deleteByNid (nid.getD 0)
      else Table.create model.columns)))

/-- `destroy`.  The index is destroyed for the nid that it takes by default. -/
def destroy (url : Url) (nid : Nat) : BCDBM Unit := do
  attempt (ensure (0 < nid) .assertionError)
  let ids ← query (findIds url (some nid) [])
  ids.forM storDelete
  indexDestroy url (some 1)

/-- Index an object that is in the store. -/
def reindex (url : Url) (id : Nat) : BCDBM Unit := do
  let obj ← get url (some id)
  ({ obj := obj, acl := .none } : JSXObjectRoot).on (set url true false)

/-- `index_rebuild` of a model, which walks over the ids that are left in its
index. -/
def indexRebuild (url : Url) (nid : Nat) : BCDBM Unit := do
  indexDestroy url (some nid)
  let ids ← query (findIds url (some nid) [])
  ids.forM (reindex url)

end BCDBModel

namespace BCDB

/-- The urls of the models that every database has. -/
def systemUrls : List Url :=
  ["jumpscale.bcdb.acl.2", "jumpscale.bcdb.user.2", "jumpscale.bcdb.circle.2",
    "jumpscale.bcdb.meta.namespace.2"]

/-- `stop` and `_init_props_` drop the models in memory. -/
def stop (bcdb : BCDB) : BCDB :=
  { bcdb with models := .empty }

/-- The model of a known url is loaded when it is not in memory. -/
def loadModel (url : Url) : BCDBM Unit :=
  advance (fun bcdb =>
    match bcdb.models.find url with
    | some _ => .ok bcdb
    | none => bcdb.modelAdd url)

/-- `index_reset`. -/
def indexReset : BCDBM Unit := do
  modify stop
  let bcdb ← getThe BCDB
  bcdb.urls.forM loadModel
  bcdb.urls.forM (fun url => BCDBModel.indexDestroy url (some 1))
  modify (fun bcdb => { bcdb with tables := fun _ => none })

/-- `start`. -/
def start : BCDBM Unit := do
  modify stop
  systemUrls.forM (fun url => advance (fun bcdb => bcdb.modelAdd url))

/-- Remember the url of a stored object. -/
def learnUrl (entry : Nat × Stored) : BCDBM Unit :=
  match entry.2 with
  | .record record => do
      let schema ← query (fun bcdb =>
        bcdb.schemaFactory.getFromMd5 record.bdata.md5)
      modify (fun bcdb => bcdb.urlSet schema.url)
  | _ => throw (.valueError "Unpack failed")

/-- Index the object of an entry under its model. -/
def rebuildEntry (entry : Nat × Stored) : BCDBM Unit := do
  let obj ← unserialize entry.1 entry.2 none
  advance (fun bcdb => bcdb.modelGet obj.schema)
  ({ obj := obj, acl := .none } : JSXObjectRoot).on
    (BCDBModel.set obj.schema.url true false)

/-- `index_rebuild`.  The first entry that the walk yields is skipped. -/
def indexRebuild : BCDBM Unit := do
  indexReset
  start
  let bcdb ← getThe BCDB
  runIf (bcdb.urls = []) (bcdb.storclient.iterate.forM learnUrl)
  bcdb.storclient.iterate.tail.forM rebuildEntry

end BCDB

end JumpscaleX
