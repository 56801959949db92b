import SignalExchange.Registry.Basic

/-! The content types, signal types and exchanges that the program comes with. -/

set_option autoImplicit false

namespace SignalExchange

namespace Standard

def qualified (name : String) : String := "sigex_core::registry::builtin::" ++ name

def contentTypes : List ContentType :=
  [⟨"photo", qualified "PhotoContent"⟩,
   ⟨"video", qualified "VideoContent"⟩,
   ⟨"text", qualified "TextContent"⟩,
   ⟨"url", qualified "UrlContent"⟩]

def signalTypes : List SignalType :=
  [⟨"pdq", qualified "PdqSignal", ["photo"]⟩,
   ⟨"video_md5", qualified "VideoMd5Signal", ["video"]⟩,
   ⟨"raw_text", qualified "RawTextSignal", ["text"]⟩,
   ⟨"url", qualified "UrlSignal", ["url"]⟩]

/-- Privacy groups of ThreatExchange. -/
def threatExchange : Exchange :=
  { name := "fb_threatexchange"
    qualifiedName := qualified "FbThreatExchangeApi"
    schema := Schema.ofFields "fb_threatexchange"
      [{ name := "privacy_group", type := .integer,
         help := some "the privacy group id to fetch signals from", placeholder := some "ID" },
       { name := "app_token_override", type := .optional .text, default := some .null,
         help := some "use this app token instead of the configured default",
         placeholder := some "TOKEN" }] }

/-- The hash sharing of NCMEC. -/
def ncmec : Exchange :=
  { name := "ncmec"
    qualifiedName := qualified "NcmecApi"
    schema := Schema.ofFields "ncmec"
      [{ name := "environment",
         type := .choice ⟨"NCMECEnvironment", ["Industry", "Exploitative", "Test"]⟩,
         help := some "which NCMEC hash sharing environment to use" },
       { name := "only_esp_ids", type := .list .integer, default := some (.array []) }] }

/-- Signals that are read from a file. -/
def localFile : Exchange :=
  { name := "local_file"
    qualifiedName := qualified "LocalFileApi"
    schema := Schema.ofFields "local_file"
      [{ name := "filename", type := .text,
         help := some "path of the file to read signals from", placeholder := some "PATH" },
       { name := "signal_type", type := .optional .text, default := some .null,
         help := some "interpret every line as this signal type" }] }

/-- Fixed data that is always there. -/
def sample : Exchange :=
  { name := "sample"
    qualifiedName := qualified "SampleApi"
    schema := Schema.ofFields "sample" []
    isSample := true }

def exchanges : List Exchange := [threatExchange, ncmec, localFile, sample]

def exchangeTypes : List ExchangeType :=
  exchanges.map fun exchange => ⟨exchange.name, exchange.qualifiedName, .built exchange⟩

end Standard

def Registry.standard : Registry :=
  ⟨Standard.contentTypes, Standard.signalTypes, Standard.exchanges⟩

end SignalExchange
