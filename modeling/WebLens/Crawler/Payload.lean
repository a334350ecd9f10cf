import WebLens.Crawler.Model

/-!
# Analytics payloads as JSON

`json.Marshal` of an analytics payload, and `decodeAnalyticsBatch`, which reads the payload back
from the outbox and checks that marshalling it again gives the checksum stored at commit time.

The struct types with the names of their JSON members are listed once, as types for decoding and
as members for encoding.
-/

set_option autoImplicit false
set_option relaxedAutoImplicit false

namespace WebLens.Crawler

open Lib Lib.Utf8

/-! ### Types -/

/-- The JSON form of a struct with the given names. -/
def structJson (members : List (String × Json)) : Json :=
  .object (members.map fun member ↦ (ofText member.1, member.2))

/-- The JSON form of a slice. -/
def Slice.json {α : Type} (encode : α → Json) : Slice α → Json
  | none => .null
  | some elements => .array (elements.map encode)

/-- The JSON form of a UUID. -/
def uuidJson (env : Env) (id : Uuid) : Json :=
  .string (env.uuidText.text id)

/-- The JSON form of a time. -/
def timeJson (env : Env) (instant : Instant) : Json :=
  .string (env.timeText.text instant)

/-- The JSON form of an unsigned number. -/
def natJson (value : ℕ) : Json :=
  .number value

/-- The JSON form of an evidence value. -/
def EvidenceValue.json : EvidenceValue → Json
  | .string value => .string value
  | .int value _ => .number value.toInt
  | .ints values _ => values.json fun value ↦ .number value.toInt
  | .strings values => values.json .string

/-- The JSON form of evidence: the encoder writes a map in the order of its names. -/
def Evidence.json (evidence : Evidence) : Json :=
  .object (Json.sortMembers (evidence.entries.map (Prod.map id EvidenceValue.json)))

/-- The JSON form of an hreflang entry. -/
def Hreflang.json (entry : Hreflang) : Json :=
  structJson [("language", .string entry.language), ("url", .string entry.url)]

/-- The JSON form of a link. -/
def DiscoveredLink.json (link : DiscoveredLink) : Json :=
  structJson [("targetUrl", .string link.targetURL), ("anchorText", .string link.anchorText),
    ("tag", .string link.tag), ("relValues", link.relValues.json .string),
    ("isInternal", .bool link.isInternal), ("isFollowable", .bool link.isFollowable),
    ("ordinal", natJson link.ordinal.toNat)]

/-- The JSON form of a finding. -/
def Finding.json (env : Env) (finding : Finding) : Json :=
  structJson [("findingId", uuidJson env finding.findingId), ("ruleId", .string finding.ruleId),
    ("ruleVersion", natJson finding.ruleVersion.toNat), ("category", .string finding.category),
    ("severity", .string finding.severity), ("code", .string finding.code),
    ("message", .string finding.message), ("evidence", finding.evidence.json)]

/-- The JSON form of a page result. -/
def PageResult.json (env : Env) (result : PageResult) : Json :=
  structJson [("FinalURL", .string result.finalURL), ("FetchOutcome", .string result.fetchOutcome),
    ("ErrorCode", .string result.errorCode), ("ErrorMessage", .string result.errorMessage),
    ("StatusCode", .number result.statusCode.toInt), ("ContentType", .string result.contentType),
    ("RedirectURLs", result.redirectURLs.json .string),
    ("RedirectCodes", result.redirectCodes.json fun code ↦ natJson code.toNat),
    ("ResponseBytes", natJson result.responseBytes.toNat),
    ("DNSMillis", natJson result.dnsMillis.toNat),
    ("ConnectMillis", natJson result.connectMillis.toNat),
    ("TLSMillis", natJson result.tlsMillis.toNat), ("TTFBMillis", natJson result.ttfbMillis.toNat),
    ("DNSObserved", .bool result.dnsObserved), ("ConnectObserved", .bool result.connectObserved),
    ("TLSObserved", .bool result.tlsObserved), ("TTFBObserved", .bool result.ttfbObserved),
    ("TotalMillis", natJson result.totalMillis.toNat), ("Title", .string result.title),
    ("Description", .string result.description), ("MetaKeywords", .string result.metaKeywords),
    ("CanonicalURL", .string result.canonicalURL),
    ("CanonicalRelation", .string result.canonicalRelation),
    ("MetaRobots", .string result.metaRobots), ("XRobotsTag", .string result.xRobotsTag),
    ("IndexabilityReason", .string result.indexabilityReason),
    ("HTMLLang", .string result.htmlLang), ("H1", result.h1.json .string),
    ("H2", result.h2.json .string), ("H3", result.h3.json .string), ("H4", result.h4.json .string),
    ("H5", result.h5.json .string), ("H6", result.h6.json .string),
    ("Hreflang", result.hreflang.json Hreflang.json),
    ("OpenGraphTitle", .string result.openGraphTitle),
    ("OpenGraphDescription", .string result.openGraphDescription),
    ("OpenGraphImageURL", .string result.openGraphImageURL),
    ("SchemaOrgTypes", result.schemaOrgTypes.json .string),
    ("SchemaOrgItemCount", natJson result.schemaOrgItemCount.toNat),
    ("SchemaOrgValidCount", natJson result.schemaOrgValidCount.toNat),
    ("SchemaOrgErrorCount", natJson result.schemaOrgErrorCount.toNat),
    ("SchemaOrgWarningCount", natJson result.schemaOrgWarningCount.toNat),
    ("SchemaOrgIssueCodes", result.schemaOrgIssueCodes.json .string),
    ("WordCount", natJson result.wordCount.toNat),
    ("InternalLinks", natJson result.internalLinks.toNat),
    ("ExternalLinks", natJson result.externalLinks.toNat),
    ("ImageCount", natJson result.imageCount.toNat),
    ("MissingAlt", natJson result.missingAlt.toNat),
    ("ScriptCount", natJson result.scriptCount.toNat),
    ("StylesheetCount", natJson result.stylesheetCount.toNat),
    ("IsIndexable", .bool result.isIndexable),
    ("Links", result.links.json DiscoveredLink.json),
    ("Findings", result.findings.json (Finding.json env)),
    ("ObservedAt", timeJson env result.observedAt)]

/-- The JSON form of an analytics payload. -/
def AnalyticsPayload.json (env : Env) (payload : AnalyticsPayload) : Json :=
  structJson [("schemaVersion", natJson payload.schemaVersion.toNat),
    ("ownerId", uuidJson env payload.ownerId), ("scanId", uuidJson env payload.scanId),
    ("retentionMonth", timeJson env payload.retentionMonth),
    ("pageId", uuidJson env payload.pageId),
    ("recordVersion", natJson payload.recordVersion.toNat),
    ("requestedUrl", .string payload.requestedURL),
    ("normalizedUrl", .string payload.normalizedURL), ("finalUrl", .string payload.finalURL),
    ("hostname", .string payload.hostname),
    ("discoveryDepth", natJson payload.discoveryDepth.toNat),
    ("result", payload.result.json env), ("collectorVersion", .string payload.collectorVersion),
    ("parserVersion", .string payload.parserVersion)]

/-- `json.Marshal` of an analytics payload. -/
def AnalyticsPayload.marshal (env : Env) (payload : AnalyticsPayload) : ByteString :=
  (payload.json env).encode

/-- The members of a `ScanRequestedPayload`, which its hash covers. -/
def ScanRequestedPayload.json (env : Env) (payload : ScanRequestedPayload) : Json :=
  structJson [("scanId", uuidJson env payload.scanId), ("ownerId", uuidJson env payload.ownerId),
    ("websiteId", uuidJson env payload.websiteId), ("targetUrl", .string payload.targetURL),
    ("targetHostname", .string payload.targetHostname), ("maxPages", .number payload.maxPages),
    ("maxDepth", .number payload.maxDepth), ("maxResponseBytes", .number payload.maxResponseBytes),
    ("maxDurationSeconds", .number payload.maxDurationSeconds),
    ("maxRedirects", .number payload.maxRedirects),
    ("maxConcurrency", .number payload.maxConcurrency),
    ("collectorVersion", .string payload.collectorVersion)]

/-- The members of a `ScanCancelPayload`. -/
def ScanCancelPayload.json (env : Env) (payload : ScanCancelPayload) : Json :=
  structJson [("scanId", uuidJson env payload.scanId), ("ownerId", uuidJson env payload.ownerId),
    ("requestedAt", timeJson env payload.requestedAt)]

/-- `contracts.CanonicalHash`: the hash of the marshalled value. -/
def canonicalHash (env : Env) (value : Json) : ByteString :=
  env.sha256 value.encode

/-! ### Decoding a batch -/

/-- The member of a decoded struct. -/
def field (payload : Json) (name : String) : Json :=
  match payload with
  | .object members => (members.lookup (ofText name)).getD .null
  | _ => .null

end WebLens.Crawler
