import WebLens.Auth.SingleUse
import WebLens.BrowserSession.Lifetime
import WebLens.Capture.Expiry
import WebLens.Capture.Reports
import WebLens.ControlPlane.Captures
import WebLens.Crawl.MapOrder
import WebLens.Crawl.PageCounts
import WebLens.Crawl.Robots
import WebLens.Crawler.Delivery
import WebLens.Crawler.Discovery
import WebLens.Crawler.Fencing
import WebLens.Crawler.PayloadRoundTrip
import WebLens.Crawler.Politeness
import WebLens.Crawler.Terminal
import WebLens.Network.Policies
import WebLens.Reports.Pagination
import WebLens.Scanning.Accepted
import WebLens.Scanning.Cancelled
import WebLens.SiteArchive.Candidates
import WebLens.SiteArchive.Packing
import WebLens.SiteArchive.RoundTrip
import WebLens.SiteArchive.Routes
import WebLens.SiteArchive.SourcePaths
import WebLens.SiteClone.Collection
import WebLens.SiteClone.Coverage
import WebLens.SiteClone.Ingestion
import WebLens.SiteClone.Trace
import WebLens.StaticClone.Dangling
import WebLens.StaticClone.Redaction
