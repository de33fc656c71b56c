import FlagGovernance.Store.Basic
import FlagGovernance.Change.Codec
/-
The JSON form of stored flags.
-/

namespace FlagGovernance

open Decode

def StoredFlag.toJson (f : StoredFlag) : Json :=
  .object [("project", .string f.project), ("key", .string f.key), ("config", f.config.toJson),
    ("revision", .ofNat f.revision), ("updatedAt", f.updatedAt.toJson)]

def StoredFlag.decode : Decoder StoredFlag :=
  record "StoredFlag"
    (StoredFlag.mk <$> .required "project" string <*> .required "key" string
      <*> .required "config" FlagConfig.decode <*> .required "revision" (natural "u64")
      <*> .required "updatedAt" instant)

end FlagGovernance
