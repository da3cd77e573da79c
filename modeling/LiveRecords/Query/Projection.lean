import LiveRecords.Expr.Path

/-
  Projection: the part of a document that a set of property paths names.

  A path that another path extends only opens the way for it and names nothing by
  itself. A path that meets something else than an object on its way keeps what it
  met; one that meets a missing field keeps the objects passed so far.
-/

namespace LiveRecords.Projection

/-- Copies what stands at a path of a document into the fields gathered so far. -/
def copyPath (target : Fields) : List String → Value → Fields
  | [], _ => target
  | name :: rest, source =>
    match source.fields?.bind (Keyed.get? name) with
    | none => target
    | some value =>
      if rest.isEmpty then target.put name value
      else
        match value, target.get? name with
        | .object inner, none => target.put name (.object (copyPath [] rest (.object inner)))
        | .object inner, some (.object there) =>
          target.put name (.object (copyPath there rest (.object inner)))
        | .object _, some _ => target
        | v, none => target.put name v
        | _, some _ => target

/-- Whether some path continues the one with the given text. -/
def isExtended (texts : List String) (text : String) : Bool :=
  texts.any fun other => (text ++ ".").toList.isPrefixOf other.toList

/-- The part of a document that the paths name; all of it for no paths, and for a
document that is no object. -/
def project (document : Value) (paths : List PropertyPath) : Value :=
  if paths.isEmpty || !document.isObject then document
  else
    let texts := paths.map (·.text)
    .object <| paths.foldl
      (fun found path =>
        if isExtended texts path.text then found
        else copyPath found (path.segments.map (·.name)) document)
      []

end LiveRecords.Projection
