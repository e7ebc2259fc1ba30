import Rulebook.Json.Basic

namespace Rulebook

-- A reader of JSON documents: which texts are documents, and the data of each.
class JsonReader where
  read? : (text : String) → Option Json

end Rulebook
