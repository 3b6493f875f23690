import BerryKeep.NodeStore

/-!
Which path an index or a version belongs to, and which object a path or a
version of a path belongs to. A lookup prefers the current binding and falls
back to the stored history in the order of the object ids; an unreadable
manifest is skipped.
-/
namespace BerryKeepLineageResolution
open FiniteTable BerryKeepContentCodec BerryKeepStoragePool BerryKeepCatalog BerryKeepVersionGraph
  BerryKeepCurrentNamespace BerryKeepNodeStore

/-- The key in a readable manifest. A tombstone has no manifest. -/
def manifestKey (codec : Codec) (st : ContentStore) (manifest_hash : String) : Option String :=
  match loadManifestByHash codec st manifest_hash with
  | .ok (some manifest) => some manifest.key
  | _ => none

def resolveKeyForVersionIndex (codec : Codec) (st : ContentStore) (index : FileVersionIndex) :
    Option String :=
  match (index.preferredHeadVersionId.bind index.versions.get).bind fun head => head.logicalPath with
  | some preferred_path => some preferred_path
  | none =>
    match index.versions.values.findSome? fun record => record.logicalPath with
    | some any_logical_path => some any_logical_path
    | none => index.versions.values.findSome? fun record => manifestKey codec st record.manifestHash

def resolveKeyForVersionRecord (codec : Codec) (st : ContentStore) (index : FileVersionIndex)
    (record : FileVersionRecord) : Option String :=
  match record.logicalPath with
  | some logical_path => some logical_path
  | none =>
    match manifestKey codec st record.manifestHash with
    | some key => some key
    | none => resolveKeyForVersionIndex codec st index

def resolveObjectIdForKeyHistory (codec : Codec) (s : Store) (key : String) : Option String :=
  match objectIdForKey s.catalog.current key with
  | some object_id => some object_id
  | none =>
    (s.catalog.loadAllVersionIndexes.find? fun index =>
      resolveKeyForVersionIndex codec s.content index = some key).map fun index => index.objectId

def boundObjectWithVersion (c : Catalog) (key version_id : String) : Option String :=
  (objectIdForKey c.current key).filter fun object_id =>
    (c.loadVersionIndex object_id).any fun index => index.versions.has version_id

def versionBelongsTo (codec : Codec) (st : ContentStore) (key version_id : String)
    (index : FileVersionIndex) : Bool :=
  (index.versions.get version_id).any fun record =>
    record.logicalPath = some key ∨ resolveKeyForVersionRecord codec st index record = some key

def resolveObjectIdForKeyVersion (codec : Codec) (s : Store) (key version_id : String) :
    Option String :=
  match boundObjectWithVersion s.catalog key version_id with
  | some object_id => some object_id
  | none =>
    (s.catalog.loadAllVersionIndexes.find? fun index =>
      versionBelongsTo codec s.content key version_id index).map fun index => index.objectId

end BerryKeepLineageResolution
